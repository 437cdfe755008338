import CodeBridge.Json.Basic

/-!
# Values part by part

`Json.byParts` is the induction over a value: what holds of a value's parts holds of the value.
Facts about everything inside a value are facts about its items and members:

* `induction_parts`       the same with `parts`, in one case;
* `induction_inner`       the same with the parts of parts;
* `Whole`                 no number of the value is a double;
* `canonicalItems_iff`, `canonicalMembers_iff`, `depthItems_lt_iff`, `depthMembers_lt_iff`;
* `Members.ofList_eq`     members whose keys ascend are kept as they are.
-/

namespace CodeBridge.Json

/-! ## induction -/

section

variable {P : Json → Prop}

/-- What passes from the parts of an array or an object to the whole. -/
structure Inductive (P : Json → Prop) : Prop where
  null : P .null
  bool : ∀ b, P (.bool b)
  num : ∀ n, P (.num n)
  str : ∀ s, P (.str s)
  arr : ∀ items, (∀ x ∈ items, P x) → P (.arr items)
  obj : ∀ members, (∀ m ∈ members, P m.2) → P (.obj members)

mutual

theorem byParts (h : Inductive P) : (v : Json) → P v
  | .null => h.null
  | .bool b => h.bool b
  | .num n => h.num n
  | .str s => h.str s
  | .arr items => h.arr items (byPartsItems h items)
  | .obj members => h.obj members (byPartsMembers h members)

theorem byPartsItems (h : Inductive P) : (items : List Json) → ∀ x ∈ items, P x
  | [] => fun _ hx => nomatch hx
  | x :: xs => List.forall_mem_cons.mpr ⟨byParts h x, byPartsItems h xs⟩

theorem byPartsMember (h : Inductive P) : (m : String × Json) → P m.2
  | (_, v) => byParts h v

theorem byPartsMembers (h : Inductive P) : (members : List (String × Json)) → ∀ m ∈ members, P m.2
  | [] => fun _ hm => nomatch hm
  | m :: ms => List.forall_mem_cons.mpr ⟨byPartsMember h m, byPartsMembers h ms⟩

end

/-- The items of an array, or the values of an object's members. -/
def parts : Json → List Json
  | .arr items => items
  | .obj members => members.map (·.2)
  | .null | .bool _ | .num _ | .str _ => []

theorem mem_parts_of_get? {key : String} {v : Json} {members : Members}
    (h : Members.get? key members = some v) : v ∈ parts (.obj members) := by
  show v ∈ members.map (·.2)
  induction members with
  | nil => cases h
  | cons m members ih =>
    obtain ⟨k, u⟩ := m
    have hget : (if k = key then some u else Members.get? key members) = some v := h
    rw [List.map_cons]
    split at hget
    · exact Option.some.inj hget ▸ List.mem_cons_self
    · exact List.mem_cons_of_mem u (ih hget)

/-- The same induction with one case for all values. -/
theorem induction_parts (h : ∀ v, (∀ u ∈ v.parts, P u) → P v) (v : Json) : P v :=
  byParts
    { null := h .null nofun
      bool := fun b => h (.bool b) nofun
      num := fun n => h (.num n) nofun
      str := fun s => h (.str s) nofun
      arr := fun items hitems => h (.arr items) hitems
      obj := fun members hmembers => h (.obj members) (List.forall_mem_map.mpr hmembers) } v

/-- The same from what lies two levels further in: the items of a list that is a member. -/
theorem induction_inner (h : ∀ v, (∀ u ∈ v.parts, ∀ w ∈ u.parts, P w) → P v) (v : Json) : P v := by
  -- the value and its parts together, since the step from the parts alone is one level short
  have hall : ∀ v : Json, P v ∧ ∀ u ∈ v.parts, P u := fun v => by
    induction v using induction_parts with
    | h v ih => exact ⟨h v fun u hu w hw => (ih u hu).2 w hw, fun u hu => (ih u hu).1⟩
  exact (hall v).1

end

/-! ## what holds everywhere in a value -/

mutual

/-- No number of the value is a double. -/
def Whole : Json → Prop
  | .null | .bool _ | .str _ => True
  | .num (.int _ _) => True
  | .num (.float _) => False
  | .arr items => WholeItems items
  | .obj members => WholeMembers members

def WholeItems : List Json → Prop
  | [] => True
  | x :: xs => Whole x ∧ WholeItems xs

def WholeMember : String × Json → Prop
  | (_, v) => Whole v

def WholeMembers : List (String × Json) → Prop
  | [] => True
  | m :: ms => WholeMember m ∧ WholeMembers ms

end

theorem wholeItems_iff (items : List Json) : WholeItems items ↔ ∀ x ∈ items, Whole x := by
  induction items with
  | nil => exact ⟨fun _ _ h => (nomatch h), fun _ => trivial⟩
  | cons x xs ih => rw [WholeItems, ih, List.forall_mem_cons]

theorem wholeMembers_iff (members : List (String × Json)) :
    WholeMembers members ↔ ∀ m ∈ members, Whole m.2 := by
  induction members with
  | nil => exact ⟨fun _ _ h => (nomatch h), fun _ => trivial⟩
  | cons m ms ih =>
    obtain ⟨key, v⟩ := m
    rw [WholeMembers, ih, List.forall_mem_cons, WholeMember]

theorem canonicalItems_iff (items : List Json) :
    CanonicalItems items ↔ ∀ x ∈ items, Canonical x := by
  induction items with
  | nil => exact ⟨fun _ _ h => (nomatch h), fun _ => trivial⟩
  | cons x xs ih => rw [CanonicalItems, ih, List.forall_mem_cons]

theorem canonicalMembers_iff (members : List (String × Json)) :
    CanonicalMembers members ↔ ∀ m ∈ members, Canonical m.2 := by
  induction members with
  | nil => exact ⟨fun _ _ h => (nomatch h), fun _ => trivial⟩
  | cons m ms ih =>
    obtain ⟨key, v⟩ := m
    rw [CanonicalMembers, ih, List.forall_mem_cons, CanonicalMember]

theorem depthItems_lt_iff (items : List Json) (n : Nat) :
    depthItems items < n ↔ 0 < n ∧ ∀ x ∈ items, depth x < n := by
  induction items with
  | nil => exact ⟨fun h => ⟨h, fun _ h => (nomatch h)⟩, fun h => h.1⟩
  | cons x xs ih =>
    rw [depthItems, Nat.max_lt, ih, List.forall_mem_cons]
    exact and_left_comm

theorem depthMembers_lt_iff (members : List (String × Json)) (n : Nat) :
    depthMembers members < n ↔ 0 < n ∧ ∀ m ∈ members, depth m.2 < n := by
  induction members with
  | nil => exact ⟨fun h => ⟨h, fun _ h => (nomatch h)⟩, fun h => h.1⟩
  | cons m ms ih =>
    obtain ⟨key, v⟩ := m
    rw [depthMembers, depthMember, Nat.max_lt, ih, List.forall_mem_cons]
    exact and_left_comm

/-! ## members whose keys ascend -/

namespace Members

theorem insert_last (key : String) (value : Json) (ms : Members) (h : ∀ m ∈ ms, m.1 < key) :
    insert key value ms = ms ++ [(key, value)] := by
  induction ms with
  | nil => rfl
  | cons m ms ih =>
    have hm : m.1 < key := h m List.mem_cons_self
    have hlt : ¬ key < m.1 := String.lt_asymm hm
    have hne : key ≠ m.1 := fun e => String.lt_irrefl _ (e ▸ hm)
    rw [insert, if_neg hlt, if_neg hne, ih fun n hn => h n (List.mem_cons_of_mem m hn),
      List.cons_append]

theorem foldl_insert (ms done : Members) (h : (done ++ ms).Pairwise fun a b => a.1 < b.1) :
    ms.foldl (fun acc m => insert m.1 m.2 acc) done = done ++ ms := by
  induction ms generalizing done with
  | nil => rw [List.foldl_nil, List.append_nil]
  | cons m ms ih =>
    have hlast : ∀ n ∈ done, n.1 < m.1 := fun n hn =>
      (List.pairwise_append.mp h).2.2 n hn m List.mem_cons_self
    rw [List.append_cons] at h
    rw [List.foldl_cons, insert_last m.1 m.2 done hlast, ih _ h, List.append_assoc]
    rfl

/-- Members that stand in the order of their keys are kept as they are. -/
theorem ofList_eq (ms : Members) (h : ms.Pairwise fun a b => a.1 < b.1) : ofList ms = ms :=
  foldl_insert ms [] h

end Members

end CodeBridge.Json
