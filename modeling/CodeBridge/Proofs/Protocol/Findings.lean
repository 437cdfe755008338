import CodeBridge.Proofs.Protocol.Records
import CodeBridge.Protocol.Diagnostic

/-!
# What a publication says

What the text of a publication says is written down by itself (`Reads`), field by field, and the
readings are shown to accept that and nothing else.

* `Position.ofJson_eq_ok`, `Range.ofJson_eq_ok`   places;
* `Severity.reads_iff`, `Diagnostic.codeReads_iff`   a severity and a code, which may be missing or
  strange;
* `Diagnostic.ofJson_eq_ok`      one finding;
* `Publication.ofJson_eq_ok`     all findings about a document, so one that cannot be read spoils all.
-/

namespace CodeBridge

/-! ## places -/

def Position.Reads (v : Json) (p : Position) : Prop :=
  ∃ ms, v.fields? ["line", "character"] = some ms ∧
    ms.get? "line" = some (.ofUInt32 p.line) ∧ ms.get? "character" = some (.ofUInt32 p.character)

theorem Position.ofJson_eq_ok {v : Json} {p : Position} : ofJson v = .ok p ↔ Reads v p := by
  refine (Json.readPair_eq_ok (show "line" ≠ "character" by decide)).trans ?_
  simp only [Json.readUInt32_eq_ok]
  constructor
  · rintro ⟨ms, hms, _, _, ⟨_, hline, rfl⟩, ⟨_, hcharacter, rfl⟩, rfl⟩
    exact ⟨ms, hms, hline, hcharacter⟩
  · rintro ⟨ms, hms, hline, hcharacter⟩
    exact ⟨ms, hms, _, _, ⟨_, hline, rfl⟩, ⟨_, hcharacter, rfl⟩, rfl⟩

def Range.Reads (v : Json) (r : Range) : Prop :=
  ∃ ms, v.fields? ["start", "end"] = some ms ∧
    (∃ u, ms.get? "start" = some u ∧ Position.Reads u r.start) ∧
    ∃ u, ms.get? "end" = some u ∧ Position.Reads u r.stop

theorem Range.ofJson_eq_ok {v : Json} {r : Range} : ofJson v = .ok r ↔ Reads v r := by
  refine (Json.readPair_eq_ok (show "start" ≠ "end" by decide)).trans ?_
  simp only [Position.ofJson_eq_ok]
  constructor
  · rintro ⟨ms, hms, start, stop, hstart, hstop, rfl⟩
    exact ⟨ms, hms, hstart, hstop⟩
  · rintro ⟨ms, hms, hstart, hstop⟩
    exact ⟨ms, hms, r.start, r.stop, hstart, hstop, rfl⟩

/-! ## severities and codes -/

namespace Severity

/-- the number that stands for a severity -/
def code : Severity → UInt64
  | .error => 1
  | .warning => 2
  | .information => 3
  | .hint => 4

/-- The severity that a field says: what is missing or stands for none is an error. -/
inductive Reads : Option Json → Severity → Prop where
  | missing : Reads none .error
  | null : Reads (some .null) .error
  | known (s : Severity) : Reads (some (.ofUInt64 s.code)) s
  | unknown (n : UInt64) (h : ∀ s : Severity, n ≠ s.code) : Reads (some (.ofUInt64 n)) .error

theorem ofCode?_eq_some {n : UInt64} {s : Severity} : ofCode? n = some s ↔ n = s.code := by
  unfold ofCode?
  rw [← UInt64.toNat_inj]
  cases s <;> split <;> simp_all [code]

theorem reads_iff {v : Option Json} {s : Severity} :
    Reads v s ↔ ∃ n, Json.Nullable (fun v n => Json.readUInt64 v = .ok n) v n ∧
      (n.bind ofCode?).getD .error = s := by
  constructor
  · rintro (_ | _ | _ | ⟨n, h⟩)
    · exact ⟨none, .missing, rfl⟩
    · exact ⟨none, .null, rfl⟩
    · refine ⟨some s.code, .value nofun (Json.readUInt64_eq_ok.mpr rfl), ?_⟩
      rw [Option.bind_some, ofCode?_eq_some.mpr rfl, Option.getD_some]
    · refine ⟨some n, .value nofun (Json.readUInt64_eq_ok.mpr rfl), ?_⟩
      have hnone : ofCode? n = none :=
        Option.eq_none_iff_forall_ne_some.mpr fun s hs => h s (ofCode?_eq_some.mp hs)
      rw [Option.bind_some, hnone, Option.getD_none]
  · rintro ⟨_, (_ | _ | @⟨_, n, _, hn⟩), rfl⟩
    · exact .missing
    · exact .null
    · obtain rfl := Json.readUInt64_eq_ok.mp hn
      cases hs : ofCode? n with
      | none =>
        rw [Option.bind_some, hs, Option.getD_none]
        refine .unknown n fun s h => ?_
        rw [ofCode?_eq_some.mpr h] at hs
        cases hs
      | some s =>
        rw [Option.bind_some, hs, Option.getD_some, ofCode?_eq_some.mp hs]
        exact .known s

end Severity

namespace Diagnostic

/-- The code that a field says: a text, or a number as it is written. -/
inductive CodeReads : Option Json → Option String → Prop where
  | missing : CodeReads none none
  | text (s : String) : CodeReads (some (.str s)) (some s)
  | number (n : Json.Number) : CodeReads (some (.num n)) (some (String.ofList n.render))
  | other {v : Json} (hs : ∀ s, v ≠ .str s) (hn : ∀ n, v ≠ .num n) : CodeReads (some v) none

theorem codeReads_iff {v : Option Json} {code : Option String} :
    CodeReads v code ↔ v.bind codeText = code := by
  constructor
  · rintro (_ | _ | _ | ⟨hs, hn⟩)
    · rfl
    · rfl
    · rfl
    · rw [Option.bind_some]
      unfold codeText
      split
      · exact absurd rfl (hs _)
      · exact absurd rfl (hn _)
      · rfl
  · rintro rfl
    cases v with
    | none => exact .missing
    | some v =>
      cases v with
      | str s => exact .text s
      | num n => exact .number n
      | null | bool _ | arr _ | obj _ =>
        exact .other (fun _ => by simp) fun _ => by simp

/-! ## findings -/

structure FieldsRead (ms : Json.Members) (d : Diagnostic) : Prop where
  range : ∃ u, ms.get? "range" = some u ∧ Range.Reads u d.range
  severity : Severity.Reads (ms.get? "severity") d.severity
  code : CodeReads (ms.get? "code") d.code
  source : Json.Nullable (fun v s => v = .str s) (ms.get? "source") d.source
  message : ms.get? "message" = some (.str d.message)

def fieldNames : List String := ["range", "severity", "code", "source", "message"]

def Reads (v : Json) (d : Diagnostic) : Prop :=
  ∃ ms, v.fields? fieldNames = some ms ∧ FieldsRead ms d

theorem ofMembers_eq_ok {ms : Json.Members} {d : Diagnostic} :
    ofMembers ms = .ok d ↔ FieldsRead ms d := by
  unfold ofMembers
  simp only [bind_eq_ok_iff, Json.required_eq_ok, pure_eq_ok_iff, Json.field?_any,
    Json.nullable?_eq_ok, Json.readString_eq_ok]
  constructor
  · rintro ⟨_, ⟨⟩, _, hmessage, _, hrange, _, hseverity, _, hsource, range, rfl, message, rfl, rfl⟩
    simp only [Json.field?_eq_ok_some, Json.readString_eq_ok, Range.ofJson_eq_ok] at hmessage hrange
    obtain ⟨_, hmessage, rfl⟩ := hmessage
    exact ⟨hrange, Severity.reads_iff.mpr ⟨_, hseverity, rfl⟩, codeReads_iff.mpr rfl, hsource,
      hmessage⟩
  · rintro ⟨hrange, hseverity, hcode, hsource, hmessage⟩
    obtain ⟨n, hseverity, hs⟩ := Severity.reads_iff.mp hseverity
    have hc := codeReads_iff.mp hcode
    refine ⟨_, rfl, some d.message, ?_, some d.range, ?_, n, hseverity, d.source, hsource, _, rfl, _,
      rfl, ?_⟩
    · exact Json.field?_eq_ok_some.mpr ⟨_, hmessage, Json.readString_eq_ok.mpr rfl⟩
    · simpa only [Json.field?_eq_ok_some, Range.ofJson_eq_ok] using hrange
    · unfold make
      rw [hs, hc]

theorem ofRow_eq_ok {items : List Json} {d : Diagnostic} :
    (∃ r, ofRow ⟨0, items⟩ = .ok (d, r) ∧ r.rest = []) ↔
      items.length = fieldNames.length ∧ ofMembers (fieldNames.zip items) = .ok d := by
  rw [ofMembers_eq_ok]
  unfold ofRow
  simp only [bind_eq_ok_iff, pure_eq_ok_iff, Prod.exists, Json.next_eq_ok, Json.readOption_eq_ok,
    Json.readString_eq_ok, Range.ofJson_eq_ok]
  constructor
  · rintro ⟨_, ⟨range, _, ⟨a, _, rfl, hrange, rfl⟩, n, _, ⟨b, rest, rfl, hseverity, rfl⟩, h⟩, hr⟩
    obtain ⟨code, r, hcode, source, _, ⟨e, _, he, hsource, rfl⟩, _, _,
      ⟨_, _, rfl, rfl, rfl⟩, hd⟩ := h
    cases rest with
    | nil =>
      -- the code may be the last item, but then nothing is left for the source
      obtain ⟨⟩ := hcode
      cases he
    | cons c rest =>
      obtain ⟨⟩ := hcode
      obtain rfl : rest = _ := he
      obtain ⟨rfl, rfl⟩ := Prod.mk.inj hd
      obtain rfl : _ = [] := hr
      exact ⟨rfl, ⟨a, rfl, hrange⟩, Severity.reads_iff.mpr ⟨n, hseverity, rfl⟩,
        codeReads_iff.mpr rfl, hsource, rfl⟩
  · rintro ⟨hl, hrange, hseverity, hcode, hsource, hmessage⟩
    obtain ⟨a, b, c, e, m, rfl⟩ : ∃ a b c e m, items = [a, b, c, e, m] := by
      match items, hl with
      | [a, b, c, e, m], _ => exact ⟨a, b, c, e, m, rfl⟩
    obtain ⟨n, hseverity, hs⟩ := Severity.reads_iff.mp hseverity
    have hc : (some c).bind codeText = d.code := codeReads_iff.mp hcode
    obtain ⟨_, ⟨⟩, hrange⟩ := hrange
    refine ⟨⟨5, []⟩, ⟨d.range, _, ⟨a, _, rfl, hrange, rfl⟩, n, _, ⟨b, _, rfl, hseverity, rfl⟩, c, _, rfl,
      d.source, _, ⟨e, _, rfl, hsource, rfl⟩, d.message, _,
      ⟨m, [], rfl, Option.some.inj hmessage, rfl⟩, ?_⟩, rfl⟩
    unfold make
    rw [hs, hc]

theorem ofJson_eq_ok {v : Json} {d : Diagnostic} : ofJson v = .ok d ↔ Reads v d := by
  refine (Json.readRecord_eq_ok fieldNames fun items a => ofRow_eq_ok).trans ?_
  simp only [ofMembers_eq_ok]
  rfl

end Diagnostic

namespace Publication

/-- The publication that a value says: every finding can be read. -/
def Reads (v : Json) (p : Publication) : Prop :=
  ∃ ms, v.fields? ["uri", "diagnostics"] = some ms ∧ ms.get? "uri" = some (.str p.uri) ∧
    ∃ items, ms.get? "diagnostics" = some (.arr items) ∧
      List.Forall₂ Diagnostic.Reads items p.diagnostics

theorem ofJson_eq_ok {v : Json} {p : Publication} : ofJson v = .ok p ↔ Reads v p := by
  refine (Json.readPair_eq_ok (show "uri" ≠ "diagnostics" by decide)).trans ?_
  simp only [Json.readString_eq_ok, Json.readList_eq_ok, Diagnostic.ofJson_eq_ok]
  constructor
  · rintro ⟨ms, hms, _, _, ⟨_, huri, rfl⟩, ⟨_, hitems, items, rfl, h⟩, rfl⟩
    exact ⟨ms, hms, huri, items, hitems, h⟩
  · rintro ⟨ms, hms, huri, items, hitems, h⟩
    exact ⟨ms, hms, _, _, ⟨_, huri, rfl⟩, ⟨_, hitems, items, rfl, h⟩, rfl⟩

end Publication

end CodeBridge
