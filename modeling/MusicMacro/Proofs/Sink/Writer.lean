import MusicMacro.Sink.Writer

/-! What a writer does with the bytes it is given.  A write that fits appends everything, and one
that does not appends the part that fits and leaves no room.  Writing in parts is writing the
whole. -/

namespace MusicMacro

def Text.utf8 (text : List Char) : ByteArray := (String.ofList text).toUTF8

theorem Text.utf8_append (text more : List Char) :
    Text.utf8 (text ++ more) = Text.utf8 text ++ Text.utf8 more := by
  simp [Text.utf8]

namespace Writer

def Fits (writer : Writer) (size : Nat) : Prop := ∀ room, writer.room = some room → size ≤ room

theorem extract_of_size_le {bytes : ByteArray} {room : Nat} (h : bytes.size ≤ room) :
    bytes.extract 0 room = bytes := by
  rw [← Nat.max_eq_left h, ByteArray.extract_zero_max_size]

theorem write_of_fits {writer : Writer} {bytes : ByteArray} (h : writer.Fits bytes.size) :
    writer.write bytes =
      (.ok (), ⟨writer.written ++ bytes, writer.room.map (· - bytes.size)⟩) := by
  cases hroom : writer.room with
  | none => simp [write, hroom]
  | some room =>
    have hle := h room hroom
    simp [write, hroom, hle, extract_of_size_le hle]

theorem write_of_lt {writer : Writer} {bytes : ByteArray} {room : Nat}
    (hroom : writer.room = some room) (h : room < bytes.size) :
    writer.write bytes =
      (.error (.io closed), ⟨writer.written ++ bytes.extract 0 room, some 0⟩) := by
  have hnot : ¬ bytes.size ≤ room := by omega
  have hzero : room - bytes.size = 0 := by omega
  simp [write, hroom, hnot, hzero]

theorem fits_or_lt (writer : Writer) (size : Nat) :
    writer.Fits size ∨ ∃ room, writer.room = some room ∧ room < size := by
  cases hroom : writer.room with
  | none => exact .inl fun room h => by simp [hroom] at h
  | some room =>
    by_cases hle : size ≤ room
    · exact .inl fun other h => by simp [hroom] at h; omega
    · exact .inr ⟨room, rfl, by omega⟩

/-- Writing two runs of bytes at once is writing one and then, if it fitted, the other. -/
theorem write_append (writer : Writer) (bytes more : ByteArray) :
    writer.write (bytes ++ more) =
      match writer.write bytes with
      | (.ok _, writer) => writer.write more
      | (.error cause, writer) => (.error cause, writer) := by
  rcases writer.fits_or_lt bytes.size with hfits | ⟨room, hroom, hlt⟩
  · rw [write_of_fits hfits]
    cases hroom : writer.room with
    | none => simp [write, hroom, ByteArray.append_assoc]
    | some room =>
      have hle := hfits room hroom
      have hcut : (bytes ++ more).extract 0 room = bytes ++ more.extract 0 (room - bytes.size) := by
        rw [ByteArray.extract_append, extract_of_size_le hle, Nat.zero_sub]
      have hiff : bytes.size + more.size ≤ room ↔ more.size ≤ room - bytes.size := by omega
      simp [write, hroom, hcut, hiff, ByteArray.append_assoc, Nat.sub_add_eq]
  · have hlt' : room < (bytes ++ more).size := by simp; omega
    have hcut : (bytes ++ more).extract 0 room = bytes.extract 0 room := by
      rw [ByteArray.extract_append, Nat.zero_sub, Nat.sub_eq_zero_of_le (Nat.le_of_lt hlt),
        ByteArray.extract_same, ByteArray.append_empty]
    rw [write_of_lt hroom hlt, write_of_lt hroom hlt', hcut]

theorem printAll_eq (writer : Writer) (texts : List (List Char)) :
    writer.printAll texts = writer.print texts.flatten := by
  induction texts generalizing writer with
  | nil =>
    have hsize : (Text.utf8 []).size = 0 := rfl
    show (Except.ok (), writer) = writer.write (Text.utf8 [])
    rw [write_of_fits fun _ _ => by omega, hsize]
    simp [Text.utf8]
  | cons text texts ih =>
    show _ = writer.write (Text.utf8 (text ++ texts.flatten))
    rw [Text.utf8_append, write_append]
    show (match writer.write (Text.utf8 text) with
      | (.ok _, writer) => writer.printAll texts
      | (.error cause, writer) => (.error cause, writer)) = _
    cases writer.write (Text.utf8 text) with
    | mk reply after =>
      cases reply with
      | ok _ => exact ih after
      | error cause => rfl

end Writer

end MusicMacro
