import MapperSweep.Proofs.Text
import MapperSweep.Proofs.Utf8.Malformed

/-!
# Lines of decoded bytes

Malformed stretches neither swallow a line feed nor make one up, and the same holds for the carriage
return before it.  So it does not matter whether bytes are first decoded and then split into lines,
or the other way round.

## Key results

- `DecodesTo.exists_rest`: a decoded character stands in the bytes, unless it is a replacement
- `isValidUTF8_iff_encode_decode`: valid bytes are decoded without loss
- `lines_decode`: the lines of decoded bytes are the decoded lines
-/

namespace MapperSweep.Text

open String (utf8EncodeChar)

namespace Utf8

/-! ## Characters of decoded bytes -/

/-- The character `c` stands in the bytes that it was decoded from, unless it is a `replacement`,
    and what follows it was decoded from the bytes after it. -/
theorem DecodesTo.exists_rest {bs : List UInt8} {cs ds : List Char} {c : Char}
    (h : DecodesTo bs (cs ++ c :: ds)) (hc : c ≠ replacement) :
    ∃ front rest, bs = front ++ utf8EncodeChar c ++ rest ∧ DecodesTo rest ds := by
  -- What the characters before it were decoded from is taken away first.
  induction cs generalizing bs with
  | nil =>
    cases h with
    | char c h => exact ⟨[], _, rfl, h⟩
    | malformed hpart h => exact absurd rfl hc
  | cons d cs ih =>
    cases h with
    | char d h =>
      obtain ⟨front, rest, rfl, hrest⟩ := ih h
      exact ⟨utf8EncodeChar d ++ front, rest, by simp, hrest⟩
    | @malformed part _ _ hpart h =>
      obtain ⟨front, rest, rfl, hrest⟩ := ih h
      exact ⟨part ++ front, rest, by simp, hrest⟩

theorem decode_eq_nil_iff {bs : List UInt8} : decode bs = [] ↔ bs = [] := by
  constructor
  · intro h
    cases decode_eq_iff_decodesTo.1 h
    rfl
  · rintro rfl
    rfl

/-- There is no line feed in `decode bs` if there is none in the bytes. -/
theorem newline_not_mem_decode {bs : List UInt8} (h : 0x0A ∉ bs) : '\n' ∉ decode bs := by
  intro hmem
  obtain ⟨cs, ds, hsplit⟩ := List.append_of_mem hmem
  obtain ⟨front, rest, rfl, -⟩ := (decode_eq_iff_decodesTo.1 hsplit).exists_rest (by decide)
  have hnewline : utf8EncodeChar '\n' = [0x0A] := by decide
  simp [hnewline] at h

/-- `decode bs` ends with a carriage return exactly if the bytes do, and it is the same whether it
    is taken away before or after decoding. -/
theorem chopReturn_decode (bs : List UInt8) :
    chopReturn '\r' (decode bs) = decode (chopReturn 0x0D bs) := by
  by_cases hbytes : bs.getLast? = some 0x0D
  · obtain ⟨front, rfl⟩ := List.getLast?_eq_some_iff.1 hbytes
    have hdecode : decode (front ++ [0x0D]) = decode front ++ ['\r'] :=
      decode_append_ascii (by decide) front []
    rw [hdecode]
    simp [chopReturn]
  · -- A carriage return at the end of the text would stand at the end of the bytes.
    have htext : (decode bs).getLast? ≠ some '\r' := by
      intro hlast
      obtain ⟨cs, hsplit⟩ := List.getLast?_eq_some_iff.1 hlast
      obtain ⟨front, rest, rfl, hrest⟩ :=
        (decode_eq_iff_decodesTo.1 hsplit).exists_rest (by decide)
      have hnil : rest = [] := decode_eq_nil_iff.1 (decode_eq_iff_decodesTo.2 hrest)
      have hreturn : utf8EncodeChar '\r' = [0x0D] := by decide
      simp [hnil, hreturn] at hbytes
    rw [chopReturn_of_getLast?_ne hbytes, chopReturn_of_getLast?_ne htext]

/-- The bytes `bs` are valid exactly if `decode` loses nothing. -/
theorem isValidUTF8_iff_encode_decode {bs : List UInt8} :
    ByteArray.IsValidUTF8 bs.toByteArray ↔ encode (decode bs) = bs := by
  constructor
  · rintro ⟨cs, hcs⟩
    obtain rfl : bs = encode cs := by
      simpa [List.utf8Encode, encode] using congrArg (fun array => array.data.toList) hcs
    rw [decode_of_decode? (decode?_encode cs)]
  · intro h
    refine ⟨decode bs, ?_⟩
    rw [List.utf8Encode]
    exact congrArg List.toByteArray h.symm

end Utf8

/-! ## Lines of decoded bytes -/

open Utf8

/-- The lines of `decode bs` are the decoded lines of the bytes. -/
theorem lines_decode (bs : List UInt8) : lines (decode bs) = (byteLines bs).map decode := by
  -- The first line is taken away with its line feed, and the rest is shorter.
  induction hlength : bs.length using Nat.strong_induction_on generalizing bs with
  | _ n ih =>
    by_cases hfeed : 0x0A ∈ bs
    · obtain ⟨line, rest, rfl, hline⟩ := List.eq_append_cons_of_mem hfeed
      have hdecode : decode (line ++ 0x0A :: rest) = decode line ++ '\n' :: decode rest :=
        decode_append_ascii (by decide) line rest
      have hshorter : rest.length < n := by
        rw [← hlength, List.length_append, List.length_cons]
        omega
      have hrest : lines (decode rest) = (byteLines rest).map decode := ih _ hshorter rest rfl
      rw [hdecode, lines, splitLines_append_cons (newline_not_mem_decode hline), byteLines,
        splitLines_append_cons hline, List.map_cons, chopReturn_decode]
      exact congrArg _ hrest
    · by_cases hnil : bs = []
      · subst hnil
        rfl
      · -- What is left is one line, before and after decoding.
        have htext : decode bs ≠ [] := mt decode_eq_nil_iff.1 hnil
        rw [lines, splitLines_of_not_mem htext (newline_not_mem_decode hfeed), byteLines,
          splitLines_of_not_mem hnil hfeed]
        rfl

end MapperSweep.Text
