import CodeBridge.Proofs.File.Paths
import CodeBridge.Proofs.Json.Scalars
import CodeBridge.Proofs.Json.Values
import CodeBridge.Proofs.Wire.Header
import CodeBridge.Service.Basic
import CodeBridge.Text.Pieces

/-!
# Lines of the service

The service reads a line for a request and writes a line for a reply.

* `plan`             what the lines of an input ask for, and whether it can be read to its end;
* `plan_encode`      of an input that is text the lines are those of the text, and it can be read to
                     its end;
* `plan_append`, `plan_between`   what two inputs one after the other ask for, and what a line more
                     does;
* `newline_not_mem_render`   the compact text of a value is on one line;
* `Reply.line_eq`    so is a reply.
-/

namespace CodeBridge

/-! ## lines of an input -/

namespace Service

/-- What the lines of an input ask for, as far as it can be read. -/
structure Plan where
  entries : List Entry
  /-- why the input could not be read to its end -/
  fault : Option Utf8.Error

def planOf : List Bytes → Plan
  | [] => ⟨[], none⟩
  | line :: lines =>
    match readLine line with
    | .error fault => ⟨[], some fault⟩
    | .ok entry =>
      let rest := planOf lines
      ⟨entry :: rest.entries, rest.fault⟩

def plan (input : Bytes) : Plan := planOf (inputLines input)

theorem encode_joinWith (p : List Char) (ps : List (List Char)) :
    Utf8.encode (joinWith '\n' (p :: ps)) =
      joinWith newline ((p :: ps).map Utf8.encode) := by
  induction ps generalizing p with
  | nil => rfl
  | cons q ps ih =>
    rw [joinWith_cons_cons, Utf8.encode_append, Utf8.encode_cons, ih q]
    rfl

/-- The bytes of a text are cut where the text is. -/
theorem piecesAt_encode (text : List Char) :
    piecesAt newline (Utf8.encode text) = (pieces text).map Utf8.encode := by
  have hfree : ∀ p ∈ pieces text, '\n' ∉ p := not_mem_of_mem_piecesAt '\n' text
  have hjoin : unlines (pieces text) = text := unlines_pieces text
  cases hp : pieces text with
  | nil => exact absurd hp (piecesAt_ne_nil '\n' text)
  | cons p ps =>
    rw [hp] at hfree hjoin
    rw [← hjoin]
    unfold unlines
    rw [encode_joinWith, List.map_cons]
    refine piecesAt_joinWith newline _ _ fun q hq => ?_
    obtain ⟨line, hline, rfl⟩ := List.mem_map.mp (List.map_cons ▸ hq)
    exact Frame.newline_not_mem_encode (hfree line hline)

theorem readLine_encode (line : List Char) :
    readLine (Utf8.encode line) = .ok (entryOfText (dropEnd line)) := by
  unfold readLine
  rw [Utf8.decode_encode]
  rfl

theorem readLine_ended (line : List Char) :
    readLine (Utf8.encode line ++ [newline]) = .ok (entryOfText (dropMark '\r' line)) := by
  have hlast : Utf8.encode ['\n'] = [newline] := by decide
  have hend : dropEnd (line ++ ['\n']) = dropMark '\r' line := by
    unfold dropEnd
    rw [List.getLast?_concat, if_pos rfl, List.dropLast_concat]
  rw [← hlast, ← Utf8.encode_append, readLine_encode, hend]

theorem readLine_unended {line : List Char} (h : '\n' ∉ line) :
    readLine (Utf8.encode line) = .ok (entryOfText line) := by
  have hend : dropEnd line = line := if_neg fun e => h (List.mem_of_getLast? e)
  rw [readLine_encode, hend]

theorem planOf_closeLines (ps : List (List Char)) (h : ∀ p ∈ ps, '\n' ∉ p) :
    planOf (closeLines (ps.map Utf8.encode)) = ⟨(rowsOf '\r' ps).map entryOfText, none⟩ := by
  induction ps with
  | nil => rfl
  | cons p ps ih =>
    cases ps with
    | nil =>
      have hempty : (Utf8.encode p).isEmpty = p.isEmpty := by
        cases p with
        | nil => rfl
        | cons c cs =>
          have hne : String.utf8EncodeChar c ≠ [] := String.utf8EncodeChar_ne_nil
          simp [Utf8.encode_cons, hne]
      show planOf (if (Utf8.encode p).isEmpty then [] else [Utf8.encode p]) =
        ⟨(if p.isEmpty then [] else [p]).map entryOfText, none⟩
      rw [hempty]
      cases hp : p.isEmpty with
      | true => rfl
      | false =>
        show planOf [Utf8.encode p] = _
        unfold planOf
        rw [readLine_unended (h p List.mem_cons_self)]
        rfl
    | cons q ps =>
      show planOf ((Utf8.encode p ++ [newline]) :: closeLines ((q :: ps).map Utf8.encode)) = _
      unfold planOf
      rw [readLine_ended, ih fun r hr => h r (List.mem_cons_of_mem p hr)]
      rfl

/-- An input that is text can be read to its end, line after line. -/
theorem plan_encode (text : List Char) :
    plan (Utf8.encode text) = ⟨(rows text).map entryOfText, none⟩ := by
  unfold plan inputLines
  rw [piecesAt_encode]
  exact planOf_closeLines (pieces text) (not_mem_of_mem_piecesAt '\n' text)

/-! ## inputs one after the other -/

/-- The last line has its newline, too. -/
def Complete (input : Bytes) : Prop := ∀ b ∈ input.getLast?, b = newline

theorem inputLines_newline {line : Bytes} (rest : Bytes) (h : newline ∉ line) :
    inputLines (line ++ newline :: rest) = (line ++ [newline]) :: inputLines rest := by
  unfold inputLines
  rw [piecesAt_append newline line rest h]
  obtain ⟨p, ps, hp⟩ := List.exists_cons_of_ne_nil (piecesAt_ne_nil newline rest)
  rw [hp]
  rfl

theorem inputLines_single {line : Bytes} (hne : line ≠ []) (h : newline ∉ line.dropLast) :
    inputLines line = [line] := by
  obtain ⟨front, last, rfl⟩ : ∃ front last, line = front ++ [last] :=
    ⟨_, _, (List.dropLast_concat_getLast hne).symm⟩
  rw [List.dropLast_concat] at h
  by_cases hlast : last = newline
  · subst hlast
    exact inputLines_newline [] h
  · have hfree : newline ∉ front ++ [last] := fun hm =>
      (List.mem_append.mp hm).elim h fun hm => hlast (List.mem_singleton.mp hm).symm
    unfold inputLines
    rw [piecesAt_of_not_mem newline _ hfree]
    show (if (front ++ [last]).isEmpty then [] else [front ++ [last]]) = _
    rw [if_neg (by simp)]

theorem inputLines_append {before : Bytes} (hbefore : Complete before) (after : Bytes) :
    inputLines (before ++ after) = inputLines before ++ inputLines after := by
  generalize hn : before.length = n
  induction n using Nat.strong_induction_on generalizing before with
  | _ n ih =>
    by_cases hnil : before = []
    · subst hnil
      rfl
    · have hlast : newline ∈ before := by
        have hmem := List.getLast_mem hnil
        rwa [hbefore _ (List.getLast?_eq_some_getLast hnil)] at hmem
      obtain ⟨line, rest, rfl, hline⟩ := List.eq_append_cons_of_mem hlast
      have hrest : Complete rest := fun b hb => by
        refine hbefore b ?_
        rw [List.getLast?_append, List.getLast?_cons, Option.mem_def.mp hb]
        rfl
      have hlen : rest.length < n := by
        rw [← hn, List.length_append, List.length_cons]
        omega
      rw [List.append_assoc, List.cons_append, inputLines_newline _ hline,
        inputLines_newline _ hline, ih rest.length hlen hrest rfl]
      rfl

theorem planOf_cons {line : Bytes} {entry : Entry} (h : readLine line = .ok entry)
    (lines : List Bytes) :
    planOf (line :: lines) = ⟨entry :: (planOf lines).entries, (planOf lines).fault⟩ := by
  rw [planOf, h]

/-- When some lines can be read, the others are read after them. -/
theorem planOf_append {lines : List Bytes} (hlines : (planOf lines).fault = none)
    (more : List Bytes) :
    planOf (lines ++ more) =
      ⟨(planOf lines).entries ++ (planOf more).entries, (planOf more).fault⟩ := by
  induction lines with
  | nil => rfl
  | cons line lines ih =>
    cases hline : readLine line with
    | error fault =>
      rw [planOf, hline] at hlines
      cases hlines
    | ok entry =>
      rw [planOf_cons hline] at hlines ⊢
      rw [List.cons_append, planOf_cons hline, ih hlines]
      rfl

theorem plan_append {before : Bytes} (after : Bytes) (hbefore : Complete before)
    (hreadable : (plan before).fault = none) :
    plan (before ++ after) =
      ⟨(plan before).entries ++ (plan after).entries, (plan after).fault⟩ := by
  unfold plan at hreadable ⊢
  rw [inputLines_append hbefore, planOf_append hreadable]

theorem plan_between {before line after : Bytes} (hbefore : Complete before) (hreadable : (plan before).fault = none)
    {entry : Entry} (hne : line ≠ []) (hline : newline ∉ line.dropLast)
    (hafter : Complete line ∨ after = []) (hentry : readLine line = .ok entry) :
    plan (before ++ (line ++ after)) =
      ⟨(plan before).entries ++ entry :: (plan after).entries, (plan after).fault⟩ := by
  have hone : plan (line ++ after) = ⟨entry :: (plan after).entries, (plan after).fault⟩ := by
    have hlines : inputLines (line ++ after) = line :: inputLines after := by
      rcases hafter with hcomplete | rfl
      · rw [inputLines_append hcomplete, inputLines_single hne hline]
        rfl
      · rw [List.append_nil, inputLines_single hne hline]
        rfl
    unfold plan
    rw [hlines, planOf_cons hentry]
  rw [plan_append _ hbefore hreadable, hone]

end Service

/-! ## one line for a value -/

theorem newline_not_mem_toDigits (n : Nat) : '\n' ∉ Nat.toDigits 10 n := fun h =>
  absurd (Json.isDigit_toDigits n '\n' h) (by decide)

theorem newline_not_mem_numeral (n : Nat) : '\n' ∉ (toString n).toList := by
  rw [Nat.toString_eq_repr, Nat.toList_repr]
  exact newline_not_mem_toDigits n

namespace FloatText

theorem newline_not_mem_unsigned (style : FloatText) (d : Binary64.Digits) :
    '\n' ∉ (style.unsigned d).toList := by
  have hdigits := newline_not_mem_numeral d.digits
  have htake (n : Nat) : '\n' ∉ (toString d.digits).toList.take n := fun h =>
    hdigits (List.mem_of_mem_take h)
  have hdrop (n : Nat) : '\n' ∉ (toString d.digits).toList.drop n := fun h =>
    hdigits (List.mem_of_mem_drop h)
  have hzeros (n : Nat) : '\n' ∉ (zeros n).toList := by
    unfold zeros
    rw [String.toList_ofList]
    exact fun h => absurd (List.eq_of_mem_replicate h) (by decide)
  unfold unsigned
  dsimp only
  split
  · decide
  split
  · split
    · simp only [String.toList_append, List.mem_append, not_or]
      exact ⟨⟨hdigits, hzeros _⟩, by decide⟩
    split
    · simp only [String.toList_append, String.toList_ofList, List.mem_append, not_or]
      exact ⟨⟨htake _, by decide⟩, hdrop _⟩
    · simp only [String.toList_append, List.mem_append, not_or]
      exact ⟨⟨by decide, hzeros _⟩, hdigits⟩
  · have hhead : '\n' ∉ (String.ofList ((toString d.digits).toList.take 1)).toList := by
      rw [String.toList_ofList]
      exact htake 1
    have htail : '\n' ∉ (String.ofList ((toString d.digits).toList.drop 1)).toList := by
      rw [String.toList_ofList]
      exact hdrop 1
    simp only [String.toList_append, List.mem_append, not_or]
    refine ⟨⟨⟨?_, by decide⟩, ?_⟩, newline_not_mem_numeral _⟩
    · split
      · exact hhead
      · simp only [String.toList_append, List.mem_append, not_or]
        exact ⟨⟨hhead, by decide⟩, htail⟩
    · split
      · decide
      · split <;> decide

theorem newline_not_mem_render (style : FloatText) (x : Binary64) :
    '\n' ∉ (style.render x).toList := by
  have hunsigned := newline_not_mem_unsigned style x.shortest
  have hbody : '\n' ∉ (if x.isInfinite then "inf" else style.unsigned x.shortest).toList := by
    split
    · decide
    · exact hunsigned
  unfold render
  dsimp only
  split
  · decide
  split
  · rw [String.toList_append, List.mem_append]
    exact fun h => h.elim (by decide) hbody
  · exact hbody

end FloatText

namespace Json

theorem newline_not_mem_escape (c : Char) : '\n' ∉ escape c := by
  have hhex : ∀ n < 16, '\n' ≠ hexDigit n := by decide
  unfold escape
  split_ifs with _ _ hc _ _ _ _ hcontrol
  all_goals try decide
  · have hhigh := hhex (c.toNat / 16) (by omega)
    have hlow := hhex (c.toNat % 16) (by omega)
    simp [hhigh, hlow]
  · exact fun h => hc (List.mem_singleton.mp h).symm

theorem newline_not_mem_quoted (cs : List Char) : '\n' ∉ quoted cs := by
  have hescaped : '\n' ∉ cs.flatMap escape := fun h => by
    obtain ⟨c, -, hc⟩ := List.mem_flatMap.mp h
    exact newline_not_mem_escape c hc
  unfold quoted
  simp [hescaped]

theorem newline_not_mem_number (n : Number) : '\n' ∉ n.render := by
  cases n with
  | float x => exact FloatText.newline_not_mem_render .json x
  | int i h =>
    have hdigits := newline_not_mem_toDigits i.natAbs
    show '\n' ∉ renderInt i
    unfold renderInt digits
    split <;> simp [hdigits]

theorem newline_not_mem_moreItems (items : List Json) (h : ∀ x ∈ items, '\n' ∉ render x) :
    '\n' ∉ renderMoreItems items := by
  induction items with
  | nil => exact List.not_mem_nil
  | cons x xs ih =>
    obtain ⟨hx, hxs⟩ := List.forall_mem_cons.mp h
    unfold renderMoreItems
    simp [hx, ih hxs]

theorem newline_not_mem_member (m : String × Json) (h : '\n' ∉ render m.2) :
    '\n' ∉ renderMember m := by
  unfold renderMember
  simp [h, newline_not_mem_quoted]

theorem newline_not_mem_moreMembers (members : Members) (h : ∀ m ∈ members, '\n' ∉ render m.2) :
    '\n' ∉ renderMoreMembers members := by
  induction members with
  | nil => exact List.not_mem_nil
  | cons m ms ih =>
    obtain ⟨hm, hms⟩ := List.forall_mem_cons.mp h
    unfold renderMoreMembers
    simp [newline_not_mem_member m hm, ih hms]

theorem newline_not_mem_render (v : Json) : '\n' ∉ v.render := by
  refine byParts (P := fun v => '\n' ∉ v.render) ⟨?null, ?bool, ?num, ?str, ?arr, ?obj⟩ v
  case null => decide
  case bool => decide
  case num => exact newline_not_mem_number
  case str => exact fun s => newline_not_mem_quoted s.toList
  case arr =>
    intro items h
    have hitems : '\n' ∉ renderItems items := by
      cases items with
      | nil => exact List.not_mem_nil
      | cons x xs =>
        obtain ⟨hx, hxs⟩ := List.forall_mem_cons.mp h
        unfold renderItems
        simp [hx, newline_not_mem_moreItems xs hxs]
    unfold render
    simp [hitems]
  case obj =>
    intro members h
    have hmembers : '\n' ∉ renderMembers members := by
      cases members with
      | nil => exact List.not_mem_nil
      | cons m ms =>
        obtain ⟨hm, hms⟩ := List.forall_mem_cons.mp h
        unfold renderMembers
        simp [newline_not_mem_member m hm, newline_not_mem_moreMembers ms hms]
    unfold render
    simp [hmembers]

end Json

theorem Reply.line_eq (r : Reply) :
    r.line = r.toJson.bytes ++ [Service.newline] ∧ Service.newline ∉ r.toJson.bytes := by
  have hlast : Utf8.encode ['\n'] = [Service.newline] := by decide
  refine ⟨?_, Frame.newline_not_mem_encode (Json.newline_not_mem_render r.toJson)⟩
  unfold Reply.line
  rw [Utf8.encode_append, hlast]
  rfl

end CodeBridge
