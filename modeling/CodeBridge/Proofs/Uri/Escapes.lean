import CodeBridge.Proofs.Text.Encoding
import CodeBridge.Uri.Basic

/-!
# Escaped bytes are read back

`encode` leaves only bytes that show and have no meaning in a path, so a segment is read as the
characters that were written, and they are decoded to the bytes that they stand for.

* `decode_encode`        escapes are undone;
* `allowed_of_mem`       a written character shows, and is neither a slash nor the end of a path;
* `unescapePoints_chars` nothing that is written is an escaped point, so no name is taken for a step;
* `segmentBytes_chars`   a segment stands for the name that it was written for.
-/

namespace CodeBridge

theorem forall_byte {p : UInt8 → Prop} (h : ∀ n : Fin 256, p (UInt8.ofFin n)) (b : UInt8) : p b :=
  h b.toFin

namespace Percent

/-! ## bytes -/

theorem written_of_mem (b : UInt8) : ∀ c ∈ encodeByte b, reserved c = false ∨ c = percent := by
  -- a test of the list, for there is an instance that goes through all bytes again
  have hall : (encodeByte b).all (fun c => !reserved c || c == percent) = true :=
    forall_byte (p := fun b => (encodeByte b).all (fun c => !reserved c || c == percent) = true)
      (by decide +kernel) b
  intro c hc
  simpa using List.all_eq_true.mp hall c hc

theorem escape?_digits (b : UInt8) : escape? (digit (b / 16)) (digit (b % 16)) = some b :=
  forall_byte (p := fun b => escape? (digit (b / 16)) (digit (b % 16)) = some b)
    (by decide +kernel) b

theorem decode_cons {b : UInt8} (h : b ≠ percent) (rest : Bytes) :
    decode (b :: rest) = b :: decode rest := by
  match rest with
  | [] => rfl
  | [_] => rfl
  | _ :: _ :: _ => rw [decode, if_neg h]

theorem decode_escape {high low b : UInt8} (h : escape? high low = some b) (rest : Bytes) :
    decode (percent :: high :: low :: rest) = b :: decode rest := by
  rw [decode, if_pos rfl, h]

theorem decode_encodeByte (b : UInt8) (rest : Bytes) :
    decode (encodeByte b ++ rest) = b :: decode rest := by
  unfold encodeByte
  split
  · exact decode_escape (escape?_digits b) rest
  next h =>
    refine decode_cons ?_ rest
    rintro rfl
    exact h rfl

/-- **Every byte string is read back from its escaped form.** -/
theorem decode_encode (bs : Bytes) : decode (encode bs) = bs := by
  induction bs with
  | nil => rfl
  | cons b bs ih => rw [encode_cons, decode_encodeByte, ih]

/-! ## characters -/

def chars (bs : Bytes) : List Char := (encode bs).map fun b => Char.ofNat b.toNat

theorem chars_cons (b : UInt8) (bs : Bytes) :
    chars (b :: bs) = ((encodeByte b).map fun b => Char.ofNat b.toNat) ++ chars bs := by
  unfold chars
  rw [encode_cons, List.map_append]

/-- A character that a path can hold: it shows, and neither parts segments nor ends the path. -/
def allowed (c : Char) : Bool :=
  0x20 < c.toNat && c.toNat < 0x7F && !Uri.isSlash c && !(c = '?' || c = '#')

theorem allowed_of_written (b : UInt8) :
    (reserved b = false ∨ b = percent) →
      allowed (Char.ofNat b.toNat) = true ∧ Utf8.byte (Char.ofNat b.toNat) = b :=
  forall_byte (p := fun b => (reserved b = false ∨ b = percent) →
    allowed (Char.ofNat b.toNat) = true ∧ Utf8.byte (Char.ofNat b.toNat) = b) (by decide +kernel) b

theorem written_of_mem_encode {bs : Bytes} {b : UInt8} (h : b ∈ encode bs) :
    reserved b = false ∨ b = percent := by
  obtain ⟨a, -, hb⟩ := List.mem_flatMap.mp h
  exact written_of_mem a b hb

theorem allowed_of_mem {bs : Bytes} {c : Char} (h : c ∈ chars bs) : allowed c = true := by
  obtain ⟨b, hb, rfl⟩ := List.mem_map.mp h
  exact (allowed_of_written b (written_of_mem_encode hb)).1

theorem encode_chars (bs : Bytes) : Utf8.encode (chars bs) = encode bs := by
  have hlow : ∀ c ∈ chars bs, c.toNat ≤ 0x7F := fun c hc => by
    have h := allowed_of_mem hc
    simp only [allowed, Bool.and_eq_true, decide_eq_true_eq] at h
    omega
  rw [Utf8.encode_ascii _ hlow, chars, List.map_map]
  refine (List.map_congr_left fun b hb => ?_).trans (List.map_id _)
  exact (allowed_of_written b (written_of_mem_encode hb)).2

theorem chars_ne_nil {bs : Bytes} (h : bs ≠ []) : chars bs ≠ [] := by
  intro e
  have hd := decode_encode bs
  rw [← encode_chars bs, e] at hd
  exact h hd.symm

end Percent

namespace Uri
open Percent

theorem segmentBytes_chars (bs : Bytes) : segmentBytes (chars bs) = bs := by
  rw [segmentBytes, encode_chars, decode_encode]

/-! ## points -/

theorem unescapePoints_cons {c : Char} {cs : List Char}
    (h : ∀ rest, c = '%' → cs ≠ '2' :: 'e' :: rest ∧ cs ≠ '2' :: 'E' :: rest) :
    unescapePoints (c :: cs) = c :: unescapePoints cs := by
  rw [unescapePoints.eq_def]
  split
  next rest e => exact absurd (List.cons.inj e).2 (h rest (List.cons.inj e).1).1
  next rest e => exact absurd (List.cons.inj e).2 (h rest (List.cons.inj e).1).2
  next e =>
    obtain ⟨rfl, rfl⟩ := List.cons.inj e
    rfl
  next e => cases e

/-- The digits of an escape are those of a byte that cannot stand for itself, as a point can. -/
theorem digits_not_point (b : UInt8) :
    let high := Char.ofNat (digit (b / 16)).toNat
    let low := Char.ofNat (digit (b % 16)).toNat
    reserved b = true → high ≠ '%' ∧ low ≠ '%' ∧ ¬(high = '2' ∧ (low = 'e' ∨ low = 'E')) :=
  forall_byte (p := fun b =>
    let high := Char.ofNat (digit (b / 16)).toNat
    let low := Char.ofNat (digit (b % 16)).toNat
    reserved b = true → high ≠ '%' ∧ low ≠ '%' ∧ ¬(high = '2' ∧ (low = 'e' ∨ low = 'E')))
    (by decide +kernel) b

theorem unescaped_is_no_mark (b : UInt8) : reserved b = false → Char.ofNat b.toNat ≠ '%' :=
  forall_byte (p := fun b => reserved b = false → Char.ofNat b.toNat ≠ '%') (by decide +kernel) b

theorem unescapePoints_chars (bs : Bytes) : unescapePoints (chars bs) = chars bs := by
  induction bs with
  | nil => rfl
  | cons b bs ih =>
    rw [chars_cons]
    unfold encodeByte
    cases hb : reserved b with
    | false =>
      have hmark := unescaped_is_no_mark b hb
      rw [if_neg Bool.false_ne_true, List.map_cons, List.map_nil, List.singleton_append,
        unescapePoints_cons fun _ e => absurd e hmark, ih]
    | true =>
      obtain ⟨hhigh, hlow, hpoint⟩ := digits_not_point b hb
      rw [if_pos rfl]
      show unescapePoints ('%' :: Char.ofNat (digit (b / 16)).toNat ::
        Char.ofNat (digit (b % 16)).toNat :: chars bs) = _
      rw [unescapePoints_cons fun rest _ => ⟨fun e => ?_, fun e => ?_⟩,
        unescapePoints_cons fun _ e => absurd e hhigh, unescapePoints_cons fun _ e => absurd e hlow, ih]
      · rfl
      · obtain ⟨h1, h2⟩ := List.cons.inj e
        exact hpoint ⟨h1, .inl (List.cons.inj h2).1⟩
      · obtain ⟨h1, h2⟩ := List.cons.inj e
        exact hpoint ⟨h1, .inr (List.cons.inj h2).1⟩

/-- A segment is a step only if it was written for one. -/
theorem unescapePoints_chars_eq {bs points : Bytes}
    (h : unescapePoints (chars bs) = chars points) : bs = points := by
  rw [unescapePoints_chars] at h
  rw [← decode_encode bs, ← encode_chars bs, h, encode_chars, decode_encode]

end Uri

end CodeBridge
