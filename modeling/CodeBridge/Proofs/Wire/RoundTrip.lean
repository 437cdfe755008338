import CodeBridge.Proofs.Json.RoundTrip
import CodeBridge.Proofs.Wire.Alignment

/-!
# Written frames are read back

`write` makes a packet (`written`) whose one header line gives the length of the body in bytes, so
what it writes of a value is one frame with that value (`isFrame_write`), and values that are
written one after the other are read in that order (`readAll_write`).
-/

namespace CodeBridge.Frame

/-! ## the header of a written frame -/

def lengthText (n : Nat) : List Char := "Content-Length: ".toList ++ Nat.toDigits 10 n

theorem gives_lengthText (n : Nat) (h : n < 2 ^ 64) : Gives (lengthText n) n := by
  refine ⟨' ' :: Nat.toDigits 10 n, ⟨[], "Content-Length".toList, [], ?_⟩,
    ⟨[' '], Nat.toDigits 10 n, [], by decide, by decide, .inl ?_, Nat.toDigits_ne_nil,
      Json.isDigit_toDigits n, Nat.ofDigitChars_ten_toDigits⟩, h⟩
  · exact ⟨by decide, by decide, by decide, rfl⟩
  · rw [List.append_nil]
    rfl

theorem oneLine_lengthText (n : Nat) : '\n' ∉ lengthText n := by
  intro h
  rcases List.mem_append.mp h with h | h
  · exact absurd h (by decide)
  · exact absurd (Json.isDigit_toDigits n '\n' h) (by decide)

def written (v : Json) (h : v.bytes.length ≤ maxBody) : Packet where
  before := []
  length := ⟨lengthText v.bytes.length, .crlf, oneLine_lengthText v.bytes.length⟩
  after := []
  blank := ⟨[], .crlf, by decide⟩
  body := v.bytes
  shown := nofun
  earlier := nofun
  gives := gives_lengthText v.bytes.length (Nat.lt_of_le_of_lt h (by decide))
  later := nofun
  closing := nofun
  fits := h

theorem ofString_header (n : Nat) :
    Utf8.ofString s!"Content-Length: {n}\r\n\r\n" =
      Utf8.encode (lengthText n ++ ['\r', '\n']) ++ Utf8.encode ['\r', '\n'] := by
  have htext : ("Content-Length: " ++ n.repr ++ "\r\n\r\n").toList =
      lengthText n ++ ['\r', '\n'] ++ ['\r', '\n'] := by
    rw [String.toList_append, String.toList_append, Nat.toList_repr, List.append_assoc _ _ ['\r', '\n']]
    rfl
  rw [← Utf8.encode_append, ← htext]
  rfl

theorem bytes_written (v : Json) (h : v.bytes.length ≤ maxBody) :
    (written v h).bytes = write v := by
  unfold write
  rw [ofString_header]
  simp only [Packet.bytes, Packet.header, written, Line.bytes, LineEnd.text, List.flatMap_nil,
    List.nil_append, List.append_nil]

/-! ## values in a row -/

/-- A value without doubles that is neither nested too deep nor too large to be read. -/
structure Sendable (v : Json) : Prop where
  /-- as in every value, keys strictly ascend -/
  canonical : v.Canonical
  whole : v.Whole
  shallow : v.depth < 128
  small : v.bytes.length ≤ 32 * 1024 * 1024

theorem isFrame_write (v : Json) (h : Sendable v) : IsFrame (write v) (.frame v) := by
  have hparse := Json.parse_bytes v h.canonical h.whole h.shallow
  have hbody : ofBody v.bytes = .frame v := by
    rw [ofBody, hparse]
  rw [← bytes_written v h.small, ← hbody]
  exact (written v h.small).isFrame

/-- **Values that are written one after the other are read in that order**, and then the stream
ends cleanly. -/
theorem readAll_write (vs : List Json) (h : ∀ v ∈ vs, Sendable v) :
    readAll (vs.flatMap write) = vs.map .frame ++ [.finished] :=
  readAll_frames vs fun v hv => isFrame_write v (h v hv)

/-- An answer with a line end and a character of two bytes in a text, and a notification. -/
theorem readAll_write_two :
    let answer : Json := .obj [("id", .ofNat 7), ("result", .arr [.str "é\n\"", .arr [], .null])]
    let notice : Json := .obj [("method", .str "exit")]
    (∀ v ∈ [answer, notice], Sendable v) ∧
      readAll (write answer ++ write notice) = [.frame answer, .frame notice, .finished] := by
  intro answer notice
  have hanswer : Sendable answer :=
    { canonical := ⟨by decide, trivial, ⟨trivial, trivial, trivial, trivial⟩, trivial⟩
      whole := ⟨trivial, ⟨trivial, trivial, trivial, trivial⟩, trivial⟩
      shallow := by decide
      small := by decide }
  have hnotice : Sendable notice :=
    { canonical := ⟨by decide, trivial, trivial⟩
      whole := ⟨trivial, trivial⟩
      shallow := by decide
      small := by decide }
  have h : ∀ v ∈ [answer, notice], Sendable v := by
    intro v hv
    rcases List.mem_cons.mp hv with rfl | hv
    · exact hanswer
    · exact List.mem_singleton.mp hv ▸ hnotice
  have hread := readAll_write [answer, notice] h
  rw [List.flatMap_cons, List.flatMap_cons, List.flatMap_nil, List.append_nil] at hread
  exact ⟨h, hread⟩

end CodeBridge.Frame
