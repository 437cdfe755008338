import CodeBridge.Proofs.Protocol.Records

/-!
# Readings of what was written

A value that was written is read as it was, when its parts are:

* `Members.get?_append`, `Members.get?_optional`, `Members.get?_insert_ne`   where members stand;
* `readList_written`, `readMap_written`, `readOption_written`, `nullable?_written`   compounds;
* `readPair_written`   a record of two fields;
* `Stable`             what a reading gives is written as a value that it reads as the same;
* `Optional`           a field of a record that is missing is as good as `null`.
-/

namespace CodeBridge.Json

variable {α β γ : Type}

/-! ## scalars -/

theorem readString_str (s : String) : readString (.str s) = .ok s := rfl

theorem readUInt32_ofUInt32 (n : UInt32) : readUInt32 (ofUInt32 n) = .ok n :=
  readUInt32_eq_ok.mpr rfl

theorem readInt32_ofInt32 (n : Int32) : readInt32 (ofInt32 n) = .ok n :=
  readInt32_eq_ok.mpr rfl

/-! ## where members stand -/

namespace Members

attribute [simp] get?_nil

@[simp] theorem get?_cons (key k : String) (v : Json) (ms : Members) :
    get? key ((k, v) :: ms) = if k = key then some v else get? key ms := rfl

@[simp] theorem get?_append (key : String) (as bs : Members) :
    get? key (as ++ bs) = (get? key as).or (get? key bs) := by
  induction as with
  | nil => rfl
  | cons m as ih =>
    obtain ⟨k, v⟩ := m
    rw [List.cons_append, get?_cons, get?_cons]
    by_cases hk : k = key
    · rw [if_pos hk, if_pos hk, Option.some_or]
    · rw [if_neg hk, if_neg hk, ih]

@[simp] theorem get?_optional (key k : String) (x : Option Json) :
    get? key (optional k x) = if k = key then x else none := by
  cases x with
  | none => exact (ite_self none).symm
  | some v => rfl

theorem get?_insert_ne {key k : String} (h : k ≠ key) (v : Json) (ms : Members) :
    get? key (insert k v ms) = get? key ms := by
  induction ms with
  | nil => exact if_neg h
  | cons m ms ih =>
    obtain ⟨k', v'⟩ := m
    unfold insert
    split
    · exact if_neg h
    · split
      next e => rw [get?_cons, get?_cons, ← e, if_neg h, if_neg h]
      next => rw [get?_cons, get?_cons, ih]

end Members

/-! ## compounds -/

theorem exists_of_mem_forall₂ {R : α → β → Prop} {as : List α} {bs : List β}
    (h : List.Forall₂ R as bs) {b : β} (hb : b ∈ bs) : ∃ a ∈ as, R a b := by
  induction h with
  | nil => cases hb
  | @cons a _ as _ hab _ ih =>
    rcases List.mem_cons.mp hb with rfl | hb
    · exact ⟨a, List.mem_cons_self, hab⟩
    · obtain ⟨a', ha', hab'⟩ := ih hb
      exact ⟨a', List.mem_cons_of_mem a ha', hab'⟩

theorem mapM_written {read : β → Decoded α} {write : α → β} {as : List α}
    (h : ∀ a ∈ as, read (write a) = .ok a) : (as.map write).mapM read = .ok as := by
  induction as with
  | nil => rfl
  | cons a as ih =>
    rw [List.map_cons, List.mapM_cons, h a List.mem_cons_self,
      ih fun b hb => h b (List.mem_cons_of_mem a hb)]
    rfl

section

variable {read : Json → Decoded α} {write : α → Json}

theorem readList_written {as : List α} (h : ∀ a ∈ as, read (write a) = .ok a) :
    readList read (.arr (as.map write)) = .ok as :=
  mapM_written h

variable (h : ∀ a, read (write a) = .ok a)
include h

theorem readMap_written (entries : List (String × α)) :
    readMap read (.obj (entries.map fun (key, a) => (key, write a))) = .ok entries := by
  refine mapM_written fun e _ => ?_
  obtain ⟨key, a⟩ := e
  show (read (write a)).map _ = _
  rw [h a]
  rfl

variable (hnull : ∀ a, write a ≠ .null)
include hnull

theorem readOption_written (x : Option α) :
    readOption read (ofOption (x.map write)) = .ok x := by
  refine readOption_eq_ok.mpr ?_
  cases x with
  | none => exact .null
  | some a => exact .value (hnull a) (h a)

theorem nullable?_written {ms : Members} {key : String} {x : Option α}
    (hms : ms.get? key = x.map write) : ms.nullable? key read = .ok x := by
  refine nullable?_eq_ok.mpr ?_
  rw [hms]
  cases x with
  | none => exact .missing
  | some a => exact .value (hnull a) (h a)

theorem nullable?_written_null {ms : Members} {key : String} {x : Option α}
    (hms : ms.get? key = some (ofOption (x.map write))) : ms.nullable? key read = .ok x := by
  refine nullable?_eq_ok.mpr ?_
  rw [hms]
  exact readOption_eq_ok.mp (readOption_written h hnull x)

end

theorem readPair_written {name expected : String} {k₁ k₂ : String} (hk : k₁ ≠ k₂)
    {read₁ : Json → Decoded β} {read₂ : Json → Decoded γ} {make : β → γ → α} {v₁ v₂ : Json}
    {x : β} {y : γ} (h₁ : read₁ v₁ = .ok x) (h₂ : read₂ v₂ = .ok y) :
    readRecord name
        (fun ms => do
          let y ← ms.field? k₂ read₂
          let x ← ms.field? k₁ read₁
          let x ← required k₁ x
          let y ← required k₂ y
          return make x y)
        (fun r => do
          let (x, r) ← r.next expected read₁
          let (y, r) ← r.next expected read₂
          return (make x y, r)) (.obj [(k₂, v₂), (k₁, v₁)]) = .ok (make x y) := by
  have hfirst : Members.get? k₁ [(k₂, v₂), (k₁, v₁)] = some v₁ := by simp [hk.symm]
  have hsecond : Members.get? k₂ [(k₂, v₂), (k₁, v₁)] = some v₂ := by simp
  exact (readPair_eq_ok hk).mpr
    ⟨_, rfl, x, y, ⟨v₁, hfirst, h₁⟩, ⟨v₂, hsecond, h₂⟩, rfl⟩

/-! ## what is written is read as it was -/

/-- Whatever a value is read as is written as a value that is read as the same. -/
def Stable (read : Json → Decoded α) (write : α → Json) : Prop :=
  ∀ v x, read v = .ok x → read (write x) = .ok x

theorem Stable.of_forall {read : Json → Decoded α} {write : α → Json}
    (h : ∀ x, read (write x) = .ok x) : Stable read write :=
  fun _ x _ => h x

/-! ## fields that may be missing -/

namespace Members

variable {key k : String} {ms : Members} (read : Json → Decoded α)

theorem field?_insert_ne (h : k ≠ key) (v : Json) :
    (insert k v ms).field? key read = ms.field? key read := by
  unfold field?
  rw [get?_insert_ne h]

theorem nullable?_insert_ne (h : k ≠ key) (v : Json) :
    (insert k v ms).nullable? key read = ms.nullable? key read := by
  unfold nullable?
  rw [field?_insert_ne _ h]

theorem nullable?_insert_null (h : ms.get? key = none) :
    (insert key .null ms).nullable? key read = ms.nullable? key read := by
  unfold nullable? field?
  rw [get?_insert_self, h]
  rfl

end Members

/-- What is made of an item depends on how what follows the item is taken. -/
theorem next_bind_congr {expected : String} {read : Json → Decoded α} {f g : α × Row → Decoded β}
    {taken : Nat} {v : Json} {rest rest' : List Json}
    (h : ∀ a, f (a, ⟨taken + 1, rest⟩) = g (a, ⟨taken + 1, rest'⟩)) :
    (Row.next expected read ⟨taken, v :: rest⟩ >>= f) =
      (Row.next expected read ⟨taken, v :: rest'⟩ >>= g) := by
  show ((read v).map _ >>= f) = ((read v).map _ >>= g)
  cases read v with
  | error e => rfl
  | ok a => exact h a

theorem nextOr_bind_congr {absent : α} {read : Json → Decoded α} {f g : α × Row → Decoded β}
    {taken : Nat} {v : Json} {rest rest' : List Json}
    (h : ∀ a, f (a, ⟨taken + 1, rest⟩) = g (a, ⟨taken + 1, rest'⟩)) :
    (Row.nextOr absent read ⟨taken, v :: rest⟩ >>= f) =
      (Row.nextOr absent read ⟨taken, v :: rest'⟩ >>= g) := by
  show ((read v).map _ >>= f) = ((read v).map _ >>= g)
  cases read v with
  | error e => rfl
  | ok a => exact h a

/-- A missing field is as good as `null`: the member `key` of an object, or the item of an array
that ends at `place`. -/
structure Optional (read : Json → Decoded α) (key : String) (place : Nat) : Prop where
  member : ∀ ms, Members.get? key ms = none →
    read (.obj (Members.insert key .null ms)) = read (.obj ms)
  item : ∀ items, items.length = place → read (.arr (items ++ [.null])) = read (.arr items)

theorem Optional.of_record {name key : String} {place : Nat} {ofMembers : Members → Decoded α}
    {ofRow : Row → Decoded (α × Row)}
    (member : ∀ ms, Members.get? key ms = none →
      ofMembers (Members.insert key .null ms) = ofMembers ms)
    (item : ∀ items, items.length = place → ofRow ⟨0, items ++ [.null]⟩ = ofRow ⟨0, items⟩) :
    Optional (readRecord name ofMembers ofRow) key place where
  member := member
  item items h := by
    show (ofRow ⟨0, items ++ [.null]⟩ >>= fun (a, r) => r.finish a) = _
    rw [item items h]
    rfl

end CodeBridge.Json
