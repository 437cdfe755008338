import CodeBridge.Proofs.Text.Decoding
import CodeBridge.Settings.Basic

/-!
# References in a text of the settings

A reference starts with a dollar sign and an opening brace and goes to the first closing brace.  A
text is cut at its references once, from left to right:

* `Cut`, `Cut.Proper`      a text in pieces, and what the pieces of a proper cut are;
* `induction_references`   the four ways in which a text goes on;
* `Cut.of`                 the one proper cut of a text (`proper_of`, `of_text`);
* `Environment.Sets`, `Environment.Stands`   what a variable is set to, and what stands for a
                           reference to it;
* `expand_singlePass`      an expanded text is its cut with the references filled in, and a text that
                           ends outside of references is expanded apart from what comes after it.
-/

namespace CodeBridge

/-! ## cuts -/

def opening : List Char := ['$', '\x7b']

def reference (name : List Char) : List Char := opening ++ name ++ ['\x7d']

/-- Every reference that starts in the text is closed in it. -/
def Closed (cs : List Char) : Prop :=
  ∀ before after, cs = before ++ opening ++ after → '\x7d' ∈ after

/-- No reference that starts in the text is closed in it. -/
def Unclosed (cs : List Char) : Prop :=
  ∀ before after, cs = before ++ opening ++ after → '\x7d' ∉ after

/-- A text in pieces: what stands before each reference with the name in it, and what stands after
the last one. -/
inductive Cut where
  | last (rest : List Char)
  | next (literal name : List Char) (more : Cut)
  deriving DecidableEq, Repr

namespace Cut

def text : Cut → List Char
  | last rest => rest
  | next literal name more => literal ++ (reference name ++ more.text)

def filled (value : List Char → List Char) : Cut → List Char
  | last rest => rest
  | next literal name more => literal ++ (value name ++ more.filled value)

/-- Each reference is the first that there is, its name goes to the first closing brace, and after
the last one no other is closed. -/
def Proper : Cut → Prop
  | last rest => Unclosed rest
  | next literal name more => ¬ opening <:+: literal ∧ '\x7d' ∉ name ∧ more.Proper

def cons (x : Char) : Cut → Cut
  | last rest => last (x :: rest)
  | next literal name more => next (x :: literal) name more

/-- A text cut from left to right. -/
def of : List Char → Cut
  | '$' :: '\x7b' :: rest =>
    match h : splitAtFirst? '\x7d' rest with
    | some (name, after) =>
      have : after.length < rest.length := length_of_splitAtFirst? h
      next [] name (of after)
    | none => last (opening ++ rest)
  | c :: rest => (of rest).cons c
  | [] => last []
termination_by cs => cs.length

theorem text_cons (x : Char) (c : Cut) : (c.cons x).text = x :: c.text := by cases c <;> rfl

theorem filled_cons (value : List Char → List Char) (x : Char) (c : Cut) :
    (c.cons x).filled value = x :: c.filled value := by cases c <;> rfl

end Cut

/-! ## how a text goes on -/

theorem splitAtFirst?_of_not_mem {c : Char} {cs : List Char} (h : c ∉ cs) :
    splitAtFirst? c cs = none := by
  induction cs with
  | nil => rfl
  | cons x cs ih =>
    rw [List.mem_cons, not_or] at h
    rw [splitAtFirst?, if_neg (Ne.symm h.1), ih h.2]
    rfl

theorem splitAtFirst?_append {c : Char} {a : List Char} (h : c ∉ a) (b : List Char) :
    splitAtFirst? c (a ++ c :: b) = some (a, b) := by
  induction a with
  | nil => exact if_pos rfl
  | cons x a ih =>
    rw [List.mem_cons, not_or] at h
    rw [List.cons_append, splitAtFirst?, if_neg (Ne.symm h.1), ih h.2]
    rfl

theorem reference_append (name after : List Char) :
    reference name ++ after = opening ++ (name ++ '\x7d' :: after) := by
  rw [reference, List.append_assoc, List.append_assoc]
  rfl

/-- A character with which no reference starts, before what comes after it. -/
def Plain (x : Char) (cs : List Char) : Prop := ¬ opening <+: x :: cs

/-- **A text goes on in one of four ways**: it is over, or there is a reference, or the start of one
that is never closed, or a character of neither. -/
theorem induction_references {motive : List Char → Prop} (nil : motive [])
    (refers : ∀ name after, '\x7d' ∉ name → motive after → motive (reference name ++ after))
    (opens : ∀ rest, '\x7d' ∉ rest → motive (opening ++ rest))
    (plain : ∀ x cs, Plain x cs → motive cs → motive (x :: cs)) (cs : List Char) : motive cs := by
  induction hn : cs.length using Nat.strongRecOn generalizing cs with
  | ind n ih =>
    subst hn
    cases cs with
    | nil => exact nil
    | cons x cs =>
      by_cases hstart : opening <+: x :: cs
      · obtain ⟨rest, hrest⟩ := hstart
        rw [← hrest] at ih ⊢
        by_cases hclosed : '\x7d' ∈ rest
        · obtain ⟨name, after, rfl, hname⟩ := List.eq_append_cons_of_mem hclosed
          have hshorter : after.length < (opening ++ (name ++ '\x7d' :: after)).length := by
            simp only [List.length_append, List.length_cons]
            omega
          rw [← reference_append]
          exact refers name after hname (ih _ hshorter after rfl)
        · exact opens rest hclosed
      · exact plain x cs hstart (ih cs.length (Nat.lt_succ_self _) cs rfl)

namespace Cut

theorem of_nil : of [] = last [] := by rw [of]

theorem of_closed {rest name after : List Char}
    (h : splitAtFirst? '\x7d' rest = some (name, after)) :
    of (opening ++ rest) = next [] name (of after) := by
  show of ('$' :: '\x7b' :: rest) = _
  rw [of]
  split
  next name' after' h' =>
    obtain ⟨rfl, rfl⟩ := Prod.mk.inj (Option.some.inj (h.symm.trans h'))
    rfl
  next h' => rw [h] at h'; cases h'

theorem of_open {rest : List Char} (h : splitAtFirst? '\x7d' rest = none) :
    of (opening ++ rest) = last (opening ++ rest) := by
  show of ('$' :: '\x7b' :: rest) = _
  rw [of]
  split
  next h' => rw [h] at h'; cases h'
  next => rfl

theorem of_refers {name : List Char} (hname : '\x7d' ∉ name) (after : List Char) :
    of (reference name ++ after) = next [] name (of after) := by
  rw [reference_append, of_closed (splitAtFirst?_append hname after)]

theorem of_opens {rest : List Char} (hrest : '\x7d' ∉ rest) :
    of (opening ++ rest) = last (opening ++ rest) := of_open (splitAtFirst?_of_not_mem hrest)

theorem of_plain {x : Char} {cs : List Char} (h : Plain x cs) : of (x :: cs) = (of cs).cons x := by
  rw [of]
  rintro rest rfl rfl
  exact h ⟨rest, rfl⟩

/-! ## the proper cut of a text -/

theorem Proper.cons {c : Cut} (h : c.Proper) {x : Char} (hx : Plain x c.text) :
    (c.cons x).Proper := by
  cases c with
  | last rest =>
    intro before after he
    cases before with
    | nil => exact absurd ⟨after, he.symm⟩ hx
    | cons y before => exact h before after (List.cons.inj he).2
  | next literal name more =>
    refine ⟨fun hin => ?_, h.2⟩
    rcases List.infix_cons_iff.mp hin with hstart | hin
    · exact hx (hstart.trans (List.prefix_append (x :: literal) _))
    · exact h.1 hin

theorem unclosed_of_not_mem {cs : List Char} (h : '\x7d' ∉ cs) : Unclosed cs :=
  fun _ _ he hafter => h (he ▸ List.mem_append_right _ hafter)

theorem proper_of (cs : List Char) : (of cs).text = cs ∧ (of cs).Proper := by
  induction cs using induction_references with
  | nil =>
    rw [of_nil]
    exact ⟨rfl, unclosed_of_not_mem nofun⟩
  | refers name after hname ih =>
    rw [of_refers hname, text, ih.1]
    exact ⟨rfl, by decide, hname, ih.2⟩
  | opens rest hrest =>
    have hnot : '\x7d' ∉ opening ++ rest := by
      rw [List.mem_append, not_or]
      exact ⟨by decide, hrest⟩
    rw [of_opens hrest]
    exact ⟨rfl, unclosed_of_not_mem hnot⟩
  | plain x cs hplain ih =>
    rw [of_plain hplain, text_cons, ih.1]
    exact ⟨rfl, ih.2.cons (ih.1.symm ▸ hplain)⟩

theorem of_unclosed {cs : List Char} (h : Unclosed cs) : of cs = last cs := by
  induction cs with
  | nil => exact of_nil
  | cons x cs ih =>
    by_cases hstart : opening <+: x :: cs
    · obtain ⟨rest, hrest⟩ := hstart
      rw [← hrest]
      exact of_opens (h [] rest hrest.symm)
    · have htail : Unclosed cs := fun before after he =>
        h (x :: before) after (congrArg (x :: ·) he)
      rw [of_plain hstart, ih htail]
      rfl

/-- No reference starts within a literal, nor across its end. -/
theorem plain_of_not_within {x : Char} {literal : List Char} (h : ¬ opening <:+: x :: literal)
    (name after : List Char) : Plain x (literal ++ (reference name ++ after)) := by
  intro hstart
  cases literal with
  | nil =>
    obtain ⟨rest, hrest⟩ := hstart
    have hbrace : '\x7b' = '$' := (List.cons.inj (List.cons.inj hrest).2).1
    exact absurd hbrace (by decide)
  | cons y literal =>
    obtain ⟨rest, hrest⟩ := hstart
    obtain ⟨hx, hrest⟩ := List.cons.inj hrest
    obtain ⟨hy, -⟩ := List.cons.inj hrest
    exact h ⟨[], literal, by rw [← hx, ← hy]; rfl⟩

theorem of_literal {literal name : List Char} (h : ¬ opening <:+: literal) (hname : '\x7d' ∉ name)
    (after : List Char) :
    of (literal ++ (reference name ++ after)) = next literal name (of after) := by
  induction literal with
  | nil => exact of_refers hname after
  | cons x literal ih =>
    have htail : ¬ opening <:+: literal := fun hin => h (List.infix_cons hin)
    rw [List.cons_append, of_plain (plain_of_not_within h name after), ih htail]
    rfl

/-- **A text has no other proper cut.** -/
theorem of_text {c : Cut} (h : c.Proper) : of c.text = c := by
  induction c with
  | last rest => exact of_unclosed h
  | next literal name more ih =>
    obtain ⟨hliteral, hname, hmore⟩ := h
    rw [text, of_literal hliteral hname, ih hmore]

end Cut

/-! ## values -/

namespace Environment

/-- A variable as the environment holds it, its name and its value with an equals sign between
them. -/
def line (e : String × Bytes) : Bytes := Utf8.ofString e.1 ++ 0x3D :: e.2

/-- The first line that starts with the name and an equals sign goes on with the value. -/
def Sets (env : Environment) (name : List Char) (value : Bytes) : Prop :=
  ∃ before e after, env = before ++ e :: after ∧
    line e = Utf8.encode name ++ 0x3D :: value ∧
    ∀ d ∈ before, ¬ Utf8.encode name ++ [0x3D] <+: line d

/-- What a reference turns into: the value of the variable, if that is text; nothing for a variable
that is not set or not set to text, and for no name at all. -/
def Stands (env : Environment) (name text : List Char) : Prop :=
  (name ≠ [] ∧ env.Sets name (Utf8.encode text)) ∨
    text = [] ∧ (name = [] ∨ ∀ other, ¬ env.Sets name (Utf8.encode other))

theorem strip_eq_some (front bs value : Bytes) :
    (if front.isPrefixOf bs then some (bs.drop front.length) else none) = some value ↔
      bs = front ++ value := by
  rw [Option.ite_none_right_eq_some, List.isPrefixOf_iff_prefix, Option.some.injEq]
  constructor
  · rintro ⟨⟨rest, rfl⟩, rfl⟩
    rw [List.drop_left]
  · rintro rfl
    exact ⟨List.prefix_append front value, List.drop_left⟩

theorem strip_eq_none (front bs : Bytes) :
    (if front.isPrefixOf bs then some (bs.drop front.length) else none) = none ↔
      ¬ front <+: bs := by
  rw [ite_eq_right_iff, List.isPrefixOf_iff_prefix]
  exact ⟨fun h hstart => absurd (h hstart) nofun, fun h hstart => absurd hstart h⟩

variable (env : Environment)

theorem sets_iff (name : List Char) (value : Bytes) :
    env.Sets name value ↔ env.get? (String.ofList name) = some value := by
  have hname : Utf8.ofString (String.ofList name) = Utf8.encode name := by
    rw [Utf8.ofString, String.toList_ofList]
  unfold get?
  rw [List.findSome?_eq_some_iff, hname]
  refine exists₃_congr fun before e after => and_congr_right fun _ => and_congr ?_ ?_
  · rw [List.append_cons]
    exact (strip_eq_some (Utf8.encode name ++ [0x3D]) (line e) value).symm
  · exact forall₂_congr fun d _ => (strip_eq_none (Utf8.encode name ++ [0x3D]) (line d)).symm

/-- What stands before the first separator is told apart from what stands after it. -/
theorem append_separator_inj {sep : UInt8} {a b x y : Bytes} (ha : sep ∉ a) (hb : sep ∉ b)
    (h : a ++ sep :: x = b ++ sep :: y) : a = b ∧ x = y := by
  rcases List.append_eq_append_iff.mp h with ⟨c, rfl, hc⟩ | ⟨c, rfl, hc⟩
  · cases c with
    | nil => exact ⟨(List.append_nil a).symm, (List.cons.inj hc).2⟩
    | cons z c =>
      obtain ⟨rfl, -⟩ := List.cons.inj hc
      exact absurd (List.mem_append_right a List.mem_cons_self) hb
  · cases c with
    | nil => exact ⟨List.append_nil b, (List.cons.inj hc).2.symm⟩
    | cons z c =>
      obtain ⟨rfl, -⟩ := List.cons.inj hc
      exact absurd (List.mem_append_right b List.mem_cons_self) ha

/-- A line says which variable it is of when no name holds an equals sign. -/
theorem line_eq_iff {e : String × Bytes} {name : List Char} (he : '=' ∉ e.1.toList)
    (hname : '=' ∉ name) (value : Bytes) :
    line e = Utf8.encode name ++ 0x3D :: value ↔ e = (String.ofList name, value) := by
  have hnot {cs : List Char} (h : '=' ∉ cs) : (0x3D : UInt8) ∉ Utf8.encode cs :=
    fun hb => h (Utf8.mem_of_byte_mem (c := '=') (by decide) hb)
  constructor
  · intro h
    obtain ⟨hsame, hvalue⟩ := append_separator_inj (hnot he) (hnot hname) h
    exact Prod.ext (by rw [← Utf8.encode_inj hsame, String.ofList_toList]) hvalue
  · rintro rfl
    rw [line, Utf8.ofString, String.toList_ofList]

/-- **Among names without equals signs a variable is looked up by its name.** -/
theorem sets_iff_lookup {name : List Char} (hname : '=' ∉ name)
    (henv : ∀ e ∈ env, '=' ∉ e.1.toList) (value : Bytes) :
    env.Sets name value ↔ env.lookup (String.ofList name) = some value := by
  have hfirst {e : String × Bytes} (he : e ∈ env) :
      ¬ Utf8.encode name ++ [0x3D] <+: line e ↔ (String.ofList name != e.1) = true := by
    rw [bne_iff_ne]
    refine not_congr ⟨?_, fun h => ?_⟩
    · rintro ⟨rest, hrest⟩
      rw [← List.append_cons] at hrest
      exact (congrArg Prod.fst ((line_eq_iff (henv e he) hname rest).mp hrest.symm)).symm
    · refine ⟨e.2, ?_⟩
      rw [← List.append_cons]
      exact ((line_eq_iff (henv e he) hname e.2).mpr (by rw [h])).symm
  rw [List.lookup_eq_some_iff]
  constructor
  · rintro ⟨before, e, after, rfl, hline, hbefore⟩
    have hmem {d : String × Bytes} (hd : d ∈ before) : d ∈ before ++ e :: after :=
      List.mem_append_left _ hd
    obtain rfl := (line_eq_iff (henv e (by simp)) hname value).mp hline
    exact ⟨before, after, rfl, fun d hd => (hfirst (hmem hd)).mp (hbefore d hd)⟩
  · rintro ⟨before, after, rfl, hbefore⟩
    have hmem {d : String × Bytes} (hd : d ∈ before) :
        d ∈ before ++ (String.ofList name, value) :: after := List.mem_append_left _ hd
    exact ⟨before, _, after, rfl, (line_eq_iff (henv _ (by simp)) hname value).mpr rfl,
      fun d hd => (hfirst (hmem hd)).mpr (hbefore d hd)⟩

def shown (name : List Char) : List Char := if name.isEmpty then [] else env.textOf name

theorem textOf_cases (name : List Char) :
    env.Sets name (Utf8.encode (env.textOf name)) ∨
      env.textOf name = [] ∧ ∀ other, ¬ env.Sets name (Utf8.encode other) := by
  simp only [sets_iff]
  unfold textOf
  cases hget : env.get? (String.ofList name) with
  | none => exact .inr ⟨rfl, nofun⟩
  | some bs =>
    rw [Option.bind_some]
    cases htext : Utf8.text? bs with
    | some s => exact .inl (congrArg some ((Utf8.text?_eq_some bs s).mp htext))
    | none =>
      refine .inr ⟨rfl, fun other hother => ?_⟩
      have hsome : Utf8.text? bs = some (String.ofList other) :=
        (Utf8.text?_eq_some bs _).mpr (by rw [String.toList_ofList]; exact Option.some.inj hother)
      rw [htext] at hsome
      cases hsome

theorem stands_iff (name text : List Char) : env.Stands name text ↔ text = env.shown name := by
  by_cases hname : name = []
  · subst hname
    exact ⟨fun h => h.elim (fun h => absurd rfl h.1) fun h => h.1,
      fun h => .inr ⟨h, .inl rfl⟩⟩
  have hshown : env.shown name = env.textOf name := if_neg (by simp [hname])
  rw [hshown]
  constructor
  · rintro (⟨-, hset⟩ | ⟨rfl, hnone⟩)
    · rcases env.textOf_cases name with hread | ⟨-, hnot⟩
      · rw [sets_iff] at hset hread
        exact Utf8.encode_inj (Option.some.inj (hset.symm.trans hread))
      · exact absurd hset (hnot text)
    · have hnot := hnone.resolve_left hname
      exact ((env.textOf_cases name).resolve_left (hnot _)).1.symm
  · rintro rfl
    rcases env.textOf_cases name with hread | ⟨hempty, hnot⟩
    · exact .inl ⟨hname, hread⟩
    · exact .inr ⟨hempty, .inr hnot⟩

end Environment

/-! ## expanded texts -/

theorem expandChars_eq (env : Environment) (cs : List Char) :
    expandChars env cs = (Cut.of cs).filled env.shown := by
  fun_induction expandChars env cs with
  | case1 rest name after h hlt ih =>
    rw [ih]
    exact (congrArg (Cut.filled env.shown) (Cut.of_closed h)).symm
  | case2 rest h => exact (congrArg (Cut.filled env.shown) (Cut.of_open h)).symm
  | case3 c rest hc ih =>
    have hplain : Plain c rest := by
      rintro ⟨after, hafter⟩
      obtain ⟨rfl, hrest⟩ := List.cons.inj hafter
      exact hc after rfl hrest.symm
    rw [Cut.of_plain hplain, Cut.filled_cons, ih]
  | case4 =>
    rw [Cut.of_nil]
    rfl

theorem expand_eq (env : Environment) (text : String) :
    expand env text = String.ofList ((Cut.of text.toList).filled env.shown) :=
  congrArg String.ofList (expandChars_eq env text.toList)

theorem Closed.of_append {a b : List Char} (h : Closed (a ++ b)) : Closed b :=
  fun before after he => h (a ++ before) after (by rw [he, List.append_assoc, List.append_assoc,
    List.append_assoc])

/-- What comes after a text that ends outside of references is cut apart from it. -/
theorem Cut.filled_append (value : List Char → List Char) {cs : List Char} (hclosed : Closed cs)
    (hend : cs.getLast? ≠ some '$') (more : List Char) :
    (of (cs ++ more)).filled value = (of cs).filled value ++ (of more).filled value := by
  induction cs using induction_references with
  | nil =>
    rw [of_nil]
    rfl
  | refers name after hname ih =>
    have hrest : after.getLast? ≠ some '$' := fun h => hend (by
      rw [List.getLast?_append, h]
      rfl)
    rw [List.append_assoc, of_refers hname, of_refers hname, filled, filled,
      ih hclosed.of_append hrest, List.append_assoc, List.append_assoc]
  | opens rest hrest => exact absurd (hclosed [] rest rfl) hrest
  | plain x cs hplain ih =>
    have htail : Closed cs := Closed.of_append (a := [x]) hclosed
    have hplain' : Plain x (cs ++ more) := by
      cases cs with
      | nil =>
        rintro ⟨after, hafter⟩
        exact hend (congrArg some (List.cons.inj hafter).1.symm)
      | cons y cs =>
        rintro ⟨after, hafter⟩
        obtain ⟨hx, hafter⟩ := List.cons.inj hafter
        obtain ⟨hy, -⟩ := List.cons.inj hafter
        exact hplain ⟨cs, by rw [← hx, ← hy]; rfl⟩
    have hrest : cs.getLast? ≠ some '$' := fun h => hend (by
      rw [List.getLast?_cons, h]
      rfl)
    rw [List.cons_append, of_plain hplain', of_plain hplain, filled_cons, filled_cons,
      ih htail hrest]
    rfl

/-- **An expanded text is the one proper cut of the text with its references filled in**, each with
what stands for it, as it is.  A text that ends outside of references is expanded apart from what
comes after it. -/
theorem expand_singlePass (env : Environment) (text : String) :
    (∃ c : Cut, (c.text = text.toList ∧ c.Proper) ∧
      (∀ other : Cut, other.text = text.toList → other.Proper → other = c) ∧
      ∃ value : List Char → List Char,
        (∀ name shown, env.Stands name shown ↔ shown = value name) ∧
        (expand env text).toList = c.filled value) ∧
    ∀ more : String, Closed text.toList → text.toList.getLast? ≠ some '$' →
      expand env (text ++ more) = expand env text ++ expand env more := by
  refine ⟨⟨Cut.of text.toList, Cut.proper_of text.toList, fun other htext hproper => ?_, env.shown,
    env.stands_iff, ?_⟩, fun more hclosed hend => ?_⟩
  · rw [← htext, Cut.of_text hproper]
  · rw [expand_eq, String.toList_ofList]
  · rw [expand_eq, expand_eq, expand_eq, String.toList_append, Cut.filled_append _ hclosed hend,
      String.ofList_append]

theorem closed_concat (cs : List Char) : Closed (cs ++ ['\x7d']) := by
  intro before after he
  have hlast := congrArg List.getLast? he
  rw [List.getLast?_concat] at hlast
  rcases List.eq_nil_or_concat after with rfl | ⟨front, c, rfl⟩
  · rw [List.append_nil, List.getLast?_append] at hlast
    exact absurd (Option.some.inj hlast) (by decide)
  · rw [List.concat_eq_append, ← List.append_assoc, List.getLast?_concat] at hlast
    rw [List.concat_eq_append, Option.some.inj hlast]
    exact List.mem_append_right front List.mem_cons_self

/-- A value that looks like a reference stays as it is, also next to a reference that is never
closed. -/
theorem expand_singlePass_reference :
    Closed "é$\x7bA\x7d".toList ∧ "é$\x7bA\x7d".toList.getLast? ≠ some '$' ∧
      expand [("A", Utf8.ofString "$\x7bA\x7d")] ("é$\x7bA\x7d" ++ "$\x7bA") =
        "é$\x7bA\x7d" ++ "$\x7bA" := by
  have hclosed : Closed "é$\x7bA\x7d".toList := closed_concat ['é', '$', '\x7b', 'A']
  have hend : "é$\x7bA\x7d".toList.getLast? ≠ some '$' := by decide
  have hreference : Cut.of "é$\x7bA\x7d".toList = .next ['é'] ['A'] (.last []) := by
    have hname : Cut.of (['é'] ++ (reference ['A'] ++ [])) = .next ['é'] ['A'] (Cut.of []) :=
      Cut.of_literal (by decide) (by decide) []
    rwa [Cut.of_nil] at hname
  have hopening : Cut.of "$\x7bA".toList = .last "$\x7bA".toList :=
    Cut.of_unclosed (Cut.unclosed_of_not_mem (by decide))
  refine ⟨hclosed, hend, ?_⟩
  rw [(expand_singlePass [("A", Utf8.ofString "$\x7bA\x7d")] "é$\x7bA\x7d").2 _ hclosed hend,
    expand_eq, expand_eq, hreference, hopening]
  rfl

end CodeBridge
