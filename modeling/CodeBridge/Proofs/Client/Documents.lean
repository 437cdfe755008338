import Mathlib.Data.List.Nodup
import CodeBridge.Client.Basic

/-!
# The list of open documents

What the operations of a client do to the list of documents that somebody holds.

* `holders_setHolders`, `holders_addDocument`, `holders_removeDocument`   who holds what afterwards;
* `Amends`    a change that keeps the list in order and leaves everything else alone;
* `OneMore`   one more holds a document.
-/

namespace CodeBridge.Client

/-! ## who holds what -/

section
variable (c : Client) (uri other : String)

theorem holders_congr {c c' : Client} (h : c'.openDocs = c.openDocs) (uri : String) :
    c'.holders uri = c.holders uri := by
  unfold holders
  rw [h]

theorem isSome_holders : (c.holders uri).isSome = true ↔ uri ∈ c.openDocs.map (·.1) := by
  unfold holders
  rw [Option.isSome_map, List.find?_isSome]
  simp [List.mem_map]

theorem holders_setHolders (n : Nat) :
    (c.setHolders uri n).holders other =
      if other = uri then (c.holders uri).map fun _ => n else c.holders other := by
  unfold holders setHolders
  induction c.openDocs with
  | nil => split <;> rfl
  | cons d docs ih =>
    dsimp only at ih ⊢
    rw [List.map_cons, List.find?_cons, List.find?_cons, List.find?_cons]
    by_cases hd : d.1 = uri
    · subst hd
      by_cases ho : other = d.1
      · simp [ho]
      · simpa [ho, Ne.symm ho] using ih
    · by_cases ho : d.1 = other
      · subst ho
        simp [hd]
      · simpa [hd, ho] using ih

theorem holders_addDocument (h : c.holders uri = none) :
    (c.addDocument uri).holders other = if other = uri then some 1 else c.holders other := by
  unfold holders addDocument at *
  dsimp only
  rw [List.find?_append]
  by_cases ho : other = uri
  · subst ho
    rw [Option.map_eq_none_iff.mp h]
    simp
  · simp [ho, Ne.symm ho]

theorem holders_removeDocument :
    (c.removeDocument uri).holders other = if other = uri then none else c.holders other := by
  unfold holders removeDocument
  dsimp only
  rw [List.find?_filter]
  split
  next h =>
    subst h
    rw [List.find?_eq_none.mpr (by simp)]
    rfl
  next h =>
    congr 2
    funext d
    by_cases hd : d.1 = other
    · simp [hd, h]
    · simp [hd]

theorem keys_setHolders (n : Nat) :
    (c.setHolders uri n).openDocs.map (·.1) = c.openDocs.map (·.1) := by
  unfold setHolders
  dsimp only
  rw [List.map_map]
  refine List.map_congr_left fun d _ => ?_
  by_cases hd : d.1 = uri
  · simp [hd]
  · simp [hd]

end

/-! ## changes -/

section
variable {c : Client} {uri : String} {m : Nat}

/-- Nothing changes but the list of documents, which stays in order. -/
structure Amends (c c' : Client) : Prop where
  link : c'.connection = c.connection
  lock : c'.lock = c.lock
  life : c'.lifecycle = c.lifecycle
  counts : (∀ doc ∈ c.openDocs, 1 ≤ doc.2) → ∀ doc ∈ c'.openDocs, 1 ≤ doc.2
  keys : (c.openDocs.map (·.1)).Nodup → (c'.openDocs.map (·.1)).Nodup

/-- One more holds a document in `c'` than in `c`. -/
def OneMore (uri : String) (c c' : Client) : Prop := ∀ other,
  (c'.holders other).getD 0 = (c.holders other).getD 0 + if other = uri then 1 else 0

theorem amends_setHolders (hm : 1 ≤ m) : Amends c (c.setHolders uri m) where
  link := rfl
  lock := rfl
  life := rfl
  counts h doc hdoc := by
    obtain ⟨d, hd, rfl⟩ := List.mem_map.mp hdoc
    split
    · exact hm
    · exact h d hd
  keys h := by
    rw [keys_setHolders]
    exact h

theorem amends_addDocument (hnone : c.holders uri = none) : Amends c (c.addDocument uri) where
  link := rfl
  lock := rfl
  life := rfl
  counts h doc hdoc := by
    rcases List.mem_append.mp hdoc with hdoc | hdoc
    · exact h doc hdoc
    · obtain rfl := List.mem_singleton.mp hdoc
      exact Nat.le_refl 1
  keys h := by
    have hfree : uri ∉ c.openDocs.map (·.1) := by
      rw [← isSome_holders, hnone]
      exact Bool.false_ne_true
    unfold addDocument
    dsimp only
    rw [List.map_append]
    exact List.nodup_append.mpr ⟨h, List.nodup_singleton uri, fun a ha b hb hab => by
      rw [hab, List.mem_singleton.mp hb] at ha
      exact hfree ha⟩

theorem amends_removeDocument : Amends c (c.removeDocument uri) where
  link := rfl
  lock := rfl
  life := rfl
  counts h doc hdoc := h doc (List.mem_of_mem_filter hdoc)
  keys h := h.sublist (List.filter_sublist.map _)

theorem oneMore_setHolders (hm : c.holders uri = some m) :
    OneMore uri c (c.setHolders uri (m + 1)) := by
  intro other
  rw [holders_setHolders]
  split
  next ho =>
    rw [ho, hm]
    rfl
  · rfl

theorem oneMore_addDocument (hnone : c.holders uri = none) : OneMore uri c (c.addDocument uri) := by
  intro other
  rw [holders_addDocument c uri other hnone]
  split
  next ho =>
    rw [ho, hnone]
    rfl
  · rfl

theorem setHolders_oneMore (hm : c.holders uri = some m) (hpos : 1 ≤ m) :
    OneMore uri (c.setHolders uri (m - 1)) c := by
  intro other
  rw [holders_setHolders]
  split
  next ho =>
    rw [ho, hm]
    exact (Nat.sub_add_cancel hpos).symm
  · rfl

theorem removeDocument_oneMore (hm : c.holders uri = some 1) :
    OneMore uri (c.removeDocument uri) c := by
  intro other
  rw [holders_removeDocument]
  split
  next ho =>
    rw [ho, hm]
    rfl
  · rfl

end

end CodeBridge.Client
