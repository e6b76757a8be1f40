import ControlRecords.Archive.Image

/-! # The stored form of an array

The stored form has no frame: nothing in it tells how many elements there are or where one of
them ends, so all depends on every element being as wide as every other.  What was written is
read again as it was, with all its bits, be they those of a number or not (`decode_encode`).
What was read is written again as it was, except that octets at the end which make up no whole
element are lost (`encode_decode`).  It follows that octets are read in the same way whatever
stands in front of them, as long as that is made up of whole elements; what is left over of it is
read together with what comes behind (`decode_append`). -/
namespace ControlRecords.Archive

theorem decode_encode (values : List UInt32) : decode (encode values) = values := by
  simpa [decode] using decode_encode_append values []

/-- The octets of an element that was read are those it was read from. -/
theorem octets_element (a b c d : UInt8) :
    octets 4 (UInt32.ofNat (ofOctets [a, b, c, d])).toNat = [a, b, c, d] := by
  have small : ofOctets [a, b, c, d] < UInt32.size := by
    simpa [UInt32.size] using ofOctets_lt [a, b, c, d]
  rw [UInt32.toNat_ofNat_of_lt' small]
  exact octets_ofOctets [a, b, c, d]

/-- Octets without four at the beginning are fewer. -/
theorem length_lt_of_short {content : List UInt8}
    (short : ∀ a b c d rest, content = a :: b :: c :: d :: rest → False) : content.length < 4 := by
  rcases content with _ | ⟨a, _ | ⟨b, _ | ⟨c, _ | ⟨d, rest⟩⟩⟩⟩
  · simp
  · simp
  · simp
  · simp
  · exact (short a b c d rest rfl).elim

/-- **What was read is written again, up to the last whole element.** -/
theorem encode_decode (content : List UInt8) :
    encode (decode content) = content.take (4 * (content.length / 4)) := by
  fun_induction decode content with
  | case1 a b c d rest ih =>
    have whole : 4 * ((a :: b :: c :: d :: rest).length / 4) = 4 * (rest.length / 4) + 4 := by
      simp only [List.length_cons]
      omega
    rw [encode_cons, octets_element, ih, whole]
    rfl
  | case2 content short =>
    rw [Nat.div_eq_of_lt (length_lt_of_short short)]
    rfl

theorem length_decode (content : List UInt8) : (decode content).length = content.length / 4 := by
  have written := congrArg List.length (encode_decode content)
  rw [length_encode, List.length_take] at written
  omega

/-- The elements that octets hold are none exactly if there are fewer than four octets. -/
theorem decode_eq_nil_iff {content : List UInt8} : decode content = [] ↔ content.length < 4 := by
  rw [← List.length_eq_zero_iff, length_decode]
  omega

/-- **Whole elements in front are read on their own.**  What is left over of the octets in front
is read together with those behind. -/
theorem decode_append (front rest : List UInt8) :
    decode (front ++ rest) =
      decode front ++ decode (front.drop (4 * (front.length / 4)) ++ rest) := by
  have split : encode (decode front) ++ (front.drop (4 * (front.length / 4)) ++ rest) =
      front ++ rest := by
    rw [encode_decode, ← List.append_assoc, List.take_append_drop]
  rw [← split, decode_encode_append]

/-- **Writing and reading undo each other.**  Elements are read as they were written, four octets
for each.  Octets are written as they were read, less those at the end that make up no whole
element.  And whole elements in front of other octets are read on their own. -/
theorem writing_and_reading_undo_each_other (values : List UInt32)
    (content front rest : List UInt8) :
    decode (encode values) = values ∧ (encode values).length = 4 * values.length ∧
      encode (decode content) = content.take (4 * (content.length / 4)) ∧
      (4 ∣ front.length → decode (front ++ rest) = decode front ++ decode rest) := by
  refine ⟨decode_encode values, length_encode values, encode_decode content, fun whole => ?_⟩
  have nothing_left : front.drop (4 * (front.length / 4)) = [] :=
    List.drop_eq_nil_of_le (Nat.le_of_eq (Nat.mul_div_cancel' whole).symm)
  rw [decode_append, nothing_left, List.nil_append]

/-- The element in front is no number and keeps its bits, and the one behind is not whole. -/
theorem element_in_front_is_read_apart :
    4 ∣ (encode [0x7fc00001]).length ∧
      decode (encode [0x7fc00001] ++ [0, 0, 0x80, 0x3f, 1, 2]) = [0x7fc00001, 0x3f800000] := by
  have whole : 4 ∣ (encode [0x7fc00001]).length := by decide
  obtain ⟨same, -, -, apart⟩ := writing_and_reading_undo_each_other [0x7fc00001] []
    (encode [0x7fc00001]) [0, 0, 0x80, 0x3f, 1, 2]
  refine ⟨whole, ?_⟩
  rw [apart whole, same]
  rfl

end ControlRecords.Archive
