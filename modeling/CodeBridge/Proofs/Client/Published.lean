import Mathlib.Data.List.Induction
import CodeBridge.Client.Published
import CodeBridge.Proofs.Protocol.Findings
import CodeBridge.Proofs.Uri.Naming

/-!
# The last publication counts

What is known of a document after any notifications at all is what the last of them that publishes
about it said, in whatever way its URI is written.

* `publication?_eq_some`   which notifications are publications;
* `read_ingest`            one notification: it replaces what is known of its own document;
* `read_of_latest`         all of them, the last publication about a document being known;
* `read_latest`            there is always such a last publication, or none at all.
-/

namespace CodeBridge

namespace Published

variable {u : String}

/-- The notification publishes the findings about a document. -/
def Publishes (n : Notification) (q : Publication) : Prop :=
  n.method = "textDocument/publishDiagnostics" ∧ ∃ v, n.params = some v ∧ q.Reads v

/-- The notification says nothing about the document of a URI. -/
def Silent (u : String) (n : Notification) : Prop :=
  ∀ q, Publishes n q → sameDocument q.uri u = false

/-- What the last publication about the document of a URI says; nothing if there is none. -/
inductive Latest (u : String) : List Notification → List Diagnostic → Prop where
  | never {ns : List Notification} : (∀ n ∈ ns, Silent u n) → Latest u ns []
  | last {before after : List Notification} {n : Notification} {q : Publication} :
    Publishes n q → sameDocument q.uri u = true → (∀ m ∈ after, Silent u m) →
      Latest u (before ++ n :: after) q.diagnostics

/-! ## one notification -/

theorem publication?_eq_some {n : Notification} {q : Publication} :
    publication? n = some q ↔ Publishes n q := by
  have hread : ∀ v, (Publication.ofJson v).toOption = some q ↔ q.Reads v := fun v =>
    toOption_eq_some_iff.trans Publication.ofJson_eq_ok
  unfold publication? Publishes
  by_cases hm : n.method = method
  · rw [if_pos hm, Option.bind_eq_some_iff]
    simp only [hread]
    exact ⟨fun h => ⟨hm, h⟩, fun h => h.2⟩
  · rw [if_neg hm]
    exact iff_of_false nofun fun h => hm h.1

/-- What is published replaces what is known of its own document, and nothing else. -/
theorem at_record (p : Published) (uri u : String) (items : List Diagnostic) :
    (p.record uri items).at_ (canonicalUri u) =
      if sameDocument uri u = true then ⟨p.generation u + 1, items⟩ else p.at_ (canonicalUri u) := by
  unfold record generation
  by_cases h : sameDocument uri u = true
  · rw [if_pos h, (canonicalUri_eq_iff uri u).mpr h, at_set_self]
  · rw [if_neg h, at_set_ne _ _ _ _ fun e => h ((canonicalUri_eq_iff uri u).mp e.symm)]

theorem read_update (p : Published) (uri u : String) (items : List Diagnostic) :
    (p.update uri items).read u = if sameDocument uri u = true then items else p.read u := by
  unfold read
  rw [at_update, at_record, apply_ite Findings.items]

theorem read_ingest {p : Published} {n : Notification} {q : Publication} (h : Publishes n q) :
    (p.ingest n).read u = if sameDocument q.uri u = true then q.diagnostics else p.read u := by
  unfold ingest
  rw [publication?_eq_some.mpr h]
  exact read_update p q.uri u q.diagnostics

theorem ingest_of_none {p : Published} {n : Notification} (h : ∀ q, ¬Publishes n q) :
    p.ingest n = p := by
  have hnone : publication? n = none :=
    Option.eq_none_iff_forall_ne_some.mpr fun q hq => h q (publication?_eq_some.mp hq)
  unfold ingest
  rw [hnone]

theorem read_of_silent {p : Published} {n : Notification} (h : Silent u n) :
    (p.ingest n).read u = p.read u := by
  by_cases hq : ∃ q, Publishes n q
  · obtain ⟨q, hq⟩ := hq
    rw [read_ingest hq, if_neg (by simp [h q hq])]
  · rw [ingest_of_none (not_exists.mp hq)]

/-! ## all of them -/

theorem read_of_all_silent {ns : List Notification} (h : ∀ n ∈ ns, Silent u n) (p : Published) :
    (ns.foldl ingest p).read u = p.read u := by
  induction ns generalizing p with
  | nil => rfl
  | cons n ns ih =>
    obtain ⟨hn, hns⟩ := List.forall_mem_cons.mp h
    rw [List.foldl_cons, ih hns, read_of_silent hn]

theorem read_of_latest {ns : List Notification} {items : List Diagnostic} (h : Latest u ns items) :
    (ns.foldl ingest {}).read u = items := by
  cases h with
  | never h => exact read_of_all_silent h {}
  | last hq hsame hafter =>
    rw [List.foldl_append, List.foldl_cons, read_of_all_silent hafter, read_ingest hq, if_pos hsame]

/-- From the last notification backwards: it is the one that counts, or it can be left out. -/
theorem exists_latest (u : String) (ns : List Notification) : ∃ items, Latest u ns items := by
  induction ns using List.reverseRecOn with
  | nil => exact ⟨[], .never nofun⟩
  | append_singleton ns n ih =>
    by_cases hn : Silent u n
    · obtain ⟨items, h⟩ := ih
      refine ⟨items, ?_⟩
      cases h with
      | never h => exact .never fun m hm => (List.mem_append.mp hm).elim (h m) fun hm =>
          List.mem_singleton.mp hm ▸ hn
      | last hq hsame hafter =>
        rw [List.append_assoc]
        exact .last hq hsame fun m hm => (List.mem_append.mp hm).elim (hafter m) fun hm =>
          List.mem_singleton.mp hm ▸ hn
    · obtain ⟨q, hq, hsame⟩ : ∃ q, Publishes n q ∧ sameDocument q.uri u = true := by
        simpa [Silent] using hn
      exact ⟨q.diagnostics, .last hq hsame nofun⟩

/-- **What is known of a document is what the last publication about it said; what cannot be read as
a publication changes nothing.** -/
theorem read_latest (ns : List Notification) (u : String) :
    (∀ items, (ns.foldl ingest {}).read u = items ↔ Latest u ns items) ∧
      ∀ (p : Published) (n : Notification), (∀ q, ¬Publishes n q) → p.ingest n = p := by
  refine ⟨fun items => ⟨?_, read_of_latest⟩, fun _ _ => ingest_of_none⟩
  rintro rfl
  obtain ⟨items, h⟩ := exists_latest u ns
  exact (read_of_latest h).symm ▸ h

/-- A finding with a severity that stands for none and a number for a code. -/
def finding (message : Json) : Json :=
  .obj [("code", .ofUInt64 7), ("message", message),
    ("range", .arr [.arr [.ofUInt32 0, .ofUInt32 1], .arr [.ofUInt32 0, .ofUInt32 2]]),
    ("severity", .ofUInt64 9)]

def publish (uri : String) (diagnostics : List Json) : Notification :=
  ⟨method, some (.obj [("diagnostics", .arr diagnostics), ("uri", .str uri)])⟩

/-- Findings, then a publication of which one finding cannot be read, and one about another text. -/
def history : List Notification :=
  [publish "file:///%61" [finding (.str "old")], publish "file:///b/../a" [finding (.str "new")],
    publish "file:///a" [finding (.str "newer"), finding .null], publish "untitled:a" []]

theorem history_latest :
    Latest "file:///a" history
        [⟨⟨⟨0, 1⟩, ⟨0, 2⟩⟩, .error, "new", some "7", none⟩] ∧
      ∀ p : Published, p.ingest (publish "file:///a" [finding (.str "newer"), finding .null]) = p := by
  have hread : (history.foldl ingest {}).read "file:///a" =
      [⟨⟨⟨0, 1⟩, ⟨0, 2⟩⟩, .error, "new", some "7", none⟩] := rfl
  have hnone : publication? (publish "file:///a" [finding (.str "newer"), finding .null]) = none :=
    rfl
  refine ⟨((read_latest history "file:///a").1 _).mp hread, fun p => ?_⟩
  refine (read_latest history "file:///a").2 p _ fun q hq => ?_
  rw [publication?_eq_some.mpr hq] at hnone
  cases hnone

end Published

end CodeBridge
