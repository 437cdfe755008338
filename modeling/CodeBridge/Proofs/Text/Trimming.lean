import CodeBridge.Text.Blank
import Mathlib.Data.List.TakeWhile

/-!
# Trimmed text

What `trim` leaves is the text between the white space at its two ends, and nothing else:

* `trim_between`      white space around a text that neither starts nor ends with it;
* `exists_around`     every text is its trimmed text with white space around it;
* `trim_eq_nil_iff`   nothing is left of white space only.
-/

namespace CodeBridge

def Blank (cs : List Char) : Prop := ∀ c ∈ cs, isBlank c = true

instance (cs : List Char) : Decidable (Blank cs) :=
  decidable_of_iff (cs.all isBlank = true) List.all_eq_true

theorem Blank.append {a b : List Char} (ha : Blank a) (hb : Blank b) : Blank (a ++ b) :=
  List.forall_mem_append.mpr ⟨ha, hb⟩

theorem Blank.reverse {a : List Char} (ha : Blank a) : Blank a.reverse :=
  fun c hc => ha c (List.mem_reverse.mp hc)

theorem dropWhile_blank_append {a : List Char} (ha : Blank a) (cs : List Char) :
    (a ++ cs).dropWhile isBlank = cs.dropWhile isBlank := by
  induction a with
  | nil => rfl
  | cons c a ih =>
    rw [List.cons_append, List.dropWhile_cons_of_pos (ha c List.mem_cons_self),
      ih fun d hd => ha d (List.mem_cons_of_mem c hd)]

theorem trim_blank_append {a : List Char} (ha : Blank a) (cs : List Char) :
    trim (a ++ cs) = trim cs := by
  unfold trim
  rw [dropWhile_blank_append ha]

theorem dropWhile_blank {a : List Char} (ha : Blank a) : a.dropWhile isBlank = [] :=
  List.dropWhile_eq_nil_iff.mpr ha

theorem trim_blank {a : List Char} (ha : Blank a) : trim a = [] := by
  unfold trim
  rw [dropWhile_blank ha]
  rfl

theorem trim_append_blank (cs : List Char) {b : List Char} (hb : Blank b) :
    trim (cs ++ b) = trim cs := by
  unfold trim
  rw [List.dropWhile_append]
  split
  next h =>
    have hnil : cs.dropWhile isBlank = [] := List.isEmpty_iff.mp h
    rw [hnil, dropWhile_blank hb]
  next => rw [List.reverse_append, dropWhile_blank_append hb.reverse]

/-- A text that neither starts nor ends with white space. -/
structure Tight (cs : List Char) : Prop where
  front : ∀ c ∈ cs.head?, isBlank c = false
  back : ∀ c ∈ cs.getLast?, isBlank c = false

theorem dropWhile_tight {cs : List Char} (h : ∀ c ∈ cs.head?, isBlank c = false) :
    cs.dropWhile isBlank = cs := by
  cases cs with
  | nil => rfl
  | cons c cs => exact List.dropWhile_cons_of_neg (by rw [h c rfl]; exact Bool.false_ne_true)

theorem trim_tight {cs : List Char} (h : Tight cs) : trim cs = cs := by
  have hback : ∀ c ∈ cs.reverse.head?, isBlank c = false := by
    rw [List.head?_reverse]
    exact h.back
  unfold trim
  rw [dropWhile_tight h.front, dropWhile_tight hback, List.reverse_reverse]

theorem trim_between {a b cs : List Char} (ha : Blank a) (h : Tight cs) (hb : Blank b) :
    trim (a ++ cs ++ b) = cs := by
  rw [trim_append_blank _ hb, trim_blank_append ha, trim_tight h]

theorem blank_takeWhile (cs : List Char) : Blank (cs.takeWhile isBlank) :=
  fun _ hc => List.mem_takeWhile_imp hc

theorem exists_around (cs : List Char) :
    ∃ a b, Blank a ∧ Blank b ∧ cs = a ++ trim cs ++ b := by
  refine ⟨cs.takeWhile isBlank, ((cs.dropWhile isBlank).reverse.takeWhile isBlank).reverse,
    blank_takeWhile cs, (blank_takeWhile _).reverse, ?_⟩
  have hback := congrArg List.reverse
    (List.takeWhile_append_dropWhile (p := isBlank) (l := (cs.dropWhile isBlank).reverse))
  rw [List.reverse_append, List.reverse_reverse] at hback
  unfold trim
  rw [List.append_assoc, hback, List.takeWhile_append_dropWhile]

theorem trim_eq_nil_iff (cs : List Char) : trim cs = [] ↔ Blank cs := by
  refine ⟨fun h => ?_, trim_blank⟩
  obtain ⟨a, b, ha, hb, e⟩ := exists_around cs
  rw [e, h, List.append_nil]
  exact ha.append hb

end CodeBridge
