import Mathlib.Data.List.Infix
import Mathlib.Tactic.Ring
import Mathlib.Tactic.SplitIfs
import MapperSweep.Proofs.Utf8

/-!
# Malformed stretches

What the machine that reads UTF-8 makes of any bytes, said by the encodings of characters alone.
Where the encoding of a character stands, the character is read.  Where none stands, the longest
stretch that could begin a character, or one byte if there is none, is replaced by one U+FFFD.

Each state inside a character stands for a set of characters: those whose encodings begin with the
bytes that were read so far.  This is the invariant `Underway`, and every byte narrows the set down.

## Key results

- `decode_eq_iff_decodesTo`: decoding by characters and malformed stretches
- `decode?_eq_some_iff_encode`: what is well-formed is the encoding of its text, and of no other
-/

namespace MapperSweep.Text.Utf8

open String (utf8EncodeChar)

/-! ## Decoding by encodings -/

/-- No character stands at the front of `part ++ rest`, and `part` is the longest stretch there that
    a character could begin with, or a single byte if no character begins with it. -/
structure Malformed (part rest : List UInt8) : Prop where
  ne_nil : part ≠ []
  noChar : ∀ c, ¬utf8EncodeChar c <+: part ++ rest
  begins : part.length = 1 ∨ ∃ c, part <+: utf8EncodeChar c
  longest : ∀ longer, longer <+: part ++ rest → part.length < longer.length →
    ∀ c, ¬longer <+: utf8EncodeChar c

/-- `DecodesTo bs cs` says that `cs` is the text of `bs`, character by character, with one
    `replacement` for each malformed stretch. -/
inductive DecodesTo : List UInt8 → List Char → Prop
  | nil : DecodesTo [] []
  | char (c : Char) {rest : List UInt8} {cs : List Char} (h : DecodesTo rest cs) :
      DecodesTo (utf8EncodeChar c ++ rest) (c :: cs)
  | malformed {part rest : List UInt8} {cs : List Char} (hpart : Malformed part rest)
      (h : DecodesTo rest cs) : DecodesTo (part ++ rest) (replacement :: cs)

/-! ## The bytes of a character -/

/-- How many bytes follow the first one of the character with the number `v`. -/
private def furtherBytes (v : Nat) : Nat :=
  if v ≤ 0x7F then 0 else if v ≤ 0x7FF then 1 else if v ≤ 0xFFFF then 2 else 3

/-- The first byte of the character with the number `v`. -/
private def firstByte (v : Nat) : Nat :=
  if v ≤ 0x7F then v
  else if v ≤ 0x7FF then v / 64 % 32 + 192
  else if v ≤ 0xFFFF then v / 4096 % 16 + 224
  else v / 262144 % 8 + 240

/-- The first byte says how many follow, and has the first bits of the number `v`. -/
private theorem firstByte_cases {v : Nat} (h : v < 0x110000) :
    v ≤ 0x7F ∧ firstByte v = v ∧ furtherBytes v = 0 ∨
      0x7F < v ∧ v ≤ 0x7FF ∧ firstByte v = v / 64 + 0xC0 ∧ furtherBytes v = 1 ∨
      0x7FF < v ∧ v ≤ 0xFFFF ∧ firstByte v = v / 4096 + 0xE0 ∧ furtherBytes v = 2 ∨
      0xFFFF < v ∧ firstByte v = v / 262144 + 0xF0 ∧ furtherBytes v = 3 := by
  unfold firstByte furtherBytes
  split_ifs <;> omega

private theorem length_encodeChar (c : Char) :
    (utf8EncodeChar c).length = furtherBytes c.val.toNat + 1 := by
  unfold utf8EncodeChar furtherBytes
  dsimp only
  split_ifs <;> rfl

private theorem getElem?_zero_encodeChar (c : Char) :
    (utf8EncodeChar c)[0]? = some (UInt8.ofNat (firstByte c.val.toNat)) := by
  unfold utf8EncodeChar firstByte
  dsimp only
  split_ifs <;> rfl

/-- The further byte in place `i` has six bits of the number of `c`. -/
private theorem getElem?_encodeChar {c : Char} {i k : Nat}
    (h : (utf8EncodeChar c).length = i + k + 1) (hi : 0 < i) :
    (utf8EncodeChar c)[i]? = some (UInt8.ofNat (c.val.toNat / 64 ^ k % 64 + 128)) := by
  rw [length_encodeChar] at h
  unfold furtherBytes at h
  unfold utf8EncodeChar
  dsimp only
  -- The number of bytes leaves few places, and at each of them the byte is written out.
  split_ifs at h ⊢
  · omega
  · obtain ⟨rfl, rfl⟩ : i = 1 ∧ k = 0 := by omega
    simp
  · obtain ⟨rfl, rfl⟩ | ⟨rfl, rfl⟩ : i = 1 ∧ k = 1 ∨ i = 2 ∧ k = 0 := by omega
    · simp
    · simp
  · obtain ⟨rfl, rfl⟩ | ⟨rfl, rfl⟩ | ⟨rfl, rfl⟩ :
        i = 1 ∧ k = 2 ∨ i = 2 ∧ k = 1 ∨ i = 3 ∧ k = 0 := by omega
    · simp
    · simp
    · simp

/-- The encoding of no character is the begin of that of another one. -/
private theorem eq_of_encodeChar_isPrefix {c d : Char}
    (h : utf8EncodeChar c <+: utf8EncodeChar d) : c = d := by
  obtain ⟨rest, hrest⟩ := h
  -- The machine would read `c` from the bytes of `d`.
  have hscan := scan_encodeChar d []
  rw [List.append_nil, ← hrest, scan_encodeChar] at hscan
  exact Option.some.inj (List.cons.inj hscan).1

private theorem ofNat_eq_iff {n : Nat} (h : n < 256) {b : UInt8} :
    UInt8.ofNat n = b ↔ n = b.toNat := by
  rw [← UInt8.toNat_inj, UInt8.toNat_ofNat_of_lt' h]

private theorem val_valid (c : Char) :
    c.val.toNat < 0xD800 ∨ 0xDFFF < c.val.toNat ∧ c.val.toNat < 0x110000 := c.valid

private theorem val_ofNat {n : Nat} (h : n.isValidChar) : (Char.ofNat n).val.toNat = n := by
  rw [Char.ofNat, dif_pos h]
  rfl

private theorem append_singleton_isPrefix_iff {α : Type} {as bs : List α} {b : α} :
    as ++ [b] <+: bs ↔ as <+: bs ∧ bs[as.length]? = some b := by
  constructor
  · rintro ⟨rest, rfl⟩
    simp
  · rintro ⟨⟨rest, rfl⟩, hb⟩
    cases rest with
    | nil => simp at hb
    | cons d rest =>
      obtain rfl : d = b := by simpa using hb
      exact ⟨rest, by simp⟩

/-! ## The characters that a state stands for -/

/-- `Allows k lo hi code v` says that the first bits of the number `v` are those of `code`, and that
    its next six bits, as a further byte, lie between `lo` and `hi`.  After these there are six bits
    for each of `k` more bytes. -/
private def Allows (k lo hi code v : Nat) : Prop :=
  v / 64 ^ (k + 1) = code ∧ lo ≤ v / 64 ^ k % 64 + 0x80 ∧ v / 64 ^ k % 64 + 0x80 ≤ hi

/-- The machine has read `part` and is inside a character: it can still become exactly those
    characters whose encodings begin with `part`, and these have `k + 1` more bytes. -/
private structure Underway (part : List UInt8) (k lo hi code : Nat) : Prop where
  ne_nil : part ≠ []
  lo_ge : 0x80 ≤ lo
  lo_le_hi : lo ≤ hi
  hi_le : hi ≤ 0xBF
  chars : ∀ c, part <+: utf8EncodeChar c ↔ Allows k lo hi code c.val.toNat
  length : ∀ c, part <+: utf8EncodeChar c → (utf8EncodeChar c).length = part.length + k + 1
  valid : ∀ v, Allows k lo hi code v → v.isValidChar

/-- The character `c` begins with the byte `b` if its number has this first byte. -/
private theorem singleton_isPrefix_iff {b : UInt8} {c : Char} :
    [b] <+: utf8EncodeChar c ↔ firstByte c.val.toNat = b.toNat := by
  have hvalid := val_valid c
  have hbyte : firstByte c.val.toNat < 256 := by
    have hfirst := @firstByte_cases c.val.toNat (by omega)
    omega
  rw [← List.nil_append [b], append_singleton_isPrefix_iff, List.length_nil,
    getElem?_zero_encodeChar, Option.some.injEq, ofNat_eq_iff hbyte]
  simp

/-- A first byte `b` begins the characters whose numbers have the bits that it holds, so they are
    `Underway`. -/
private theorem underway_singleton {b : UInt8} {k lo hi code : Nat} (hlo : 0x80 ≤ lo)
    (hlohi : lo ≤ hi) (hhi : hi ≤ 0xBF)
    (hchars : ∀ v, v < 0xD800 ∨ 0xDFFF < v ∧ v < 0x110000 →
      (firstByte v = b.toNat ↔ Allows k lo hi code v))
    (hlength : ∀ v, v < 0x110000 → firstByte v = b.toNat → furtherBytes v = k + 1)
    (hvalid : ∀ v, Allows k lo hi code v → v.isValidChar) : Underway [b] k lo hi code := by
  refine ⟨by simp, hlo, hlohi, hhi, ?_, ?_, hvalid⟩
  · intro c
    rw [singleton_isPrefix_iff, hchars _ (val_valid c)]
  · intro c hc
    have hvalid := val_valid c
    have hfurther := hlength _ (by omega) (singleton_isPrefix_iff.1 hc)
    rw [length_encodeChar, hfurther, List.length_singleton]
    omega

/-- The bytes that are never the first one of a character. -/
private theorem not_singleton_isPrefix {b : UInt8}
    (h : 0x80 ≤ b.toNat ∧ b.toNat < 0xC2 ∨ 0xF4 < b.toNat) (c : Char) :
    ¬[b] <+: utf8EncodeChar c := by
  have hvalid := val_valid c
  have hfirst := @firstByte_cases c.val.toNat (by omega)
  rw [singleton_isPrefix_iff]
  omega

/-- What a byte `b` does when no character is under way: it is one, or begins none, or some. -/
private theorem start_cases (b : UInt8) :
    (∃ c, start b.toNat = ([some c], .between) ∧ utf8EncodeChar c = [b]) ∨
      (start b.toNat = ([none], .between) ∧ ∀ c, ¬[b] <+: utf8EncodeChar c) ∨
      ∃ k lo hi code, start b.toNat = ([], .inside k lo hi code) ∧ Underway [b] k lo hi code := by
  fun_cases start b.toNat with
  | case1 hascii =>
    have hval : (Char.ofNat b.toNat).val.toNat = b.toNat := val_ofNat (.inl (by omega))
    refine .inl ⟨_, rfl, ?_⟩
    simp [utf8EncodeChar, hval, Nat.le_of_lt_succ hascii]
  | case2 hascii hlow => exact .inr (.inl ⟨rfl, not_singleton_isPrefix (.inl ⟨by omega, hlow⟩)⟩)
  | case10 => exact .inr (.inl ⟨rfl, not_singleton_isPrefix (.inr (by omega))⟩)
  | _ =>
    -- In each of these cases, the bounds cut out just the numbers that have this first byte.
    refine .inr (.inr ⟨_, _, _, _, rfl, underway_singleton ?_ ?_ ?_ ?_ ?_ ?_⟩)
    iterate 3 omega
    · intro v hv
      have hfirst := @firstByte_cases v (by omega)
      simp only [Allows, Nat.reducePow, Nat.reduceAdd]
      omega
    · intro v hv
      have hfirst := firstByte_cases hv
      omega
    · intro v
      simp only [Allows, Nat.isValidChar, Nat.reducePow, Nat.reduceAdd]
      omega

namespace Underway

variable {part : List UInt8} {k lo hi code : Nat}

/-- The characters that are left after one more byte `b` have this byte at its place. -/
private theorem append_isPrefix_iff (h : Underway part k lo hi code) (b : UInt8) (c : Char) :
    part ++ [b] <+: utf8EncodeChar c ↔
      Allows k lo hi code c.val.toNat ∧ c.val.toNat / 64 ^ k % 64 + 0x80 = b.toNat := by
  rw [append_singleton_isPrefix_iff, h.chars]
  refine and_congr_right fun hallows => ?_
  have hlength := h.length c ((h.chars c).2 hallows)
  rw [getElem?_encodeChar hlength (List.length_pos_iff.2 h.ne_nil), Option.some.injEq,
    ofNat_eq_iff (by omega)]

/-- A byte `b` within the bounds leaves the characters that have it next. -/
private theorem append (h : Underway part (k + 1) lo hi code) {b : UInt8}
    (hb : lo ≤ b.toNat ∧ b.toNat ≤ hi) :
    Underway (part ++ [b]) k 0x80 0xBF (code * 64 + (b.toNat - 0x80)) := by
  have hlo := h.lo_ge
  have hhi := h.hi_le
  -- The six bits of the byte are put behind those that are known.
  have hallows : ∀ v, Allows k 0x80 0xBF (code * 64 + (b.toNat - 0x80)) v ↔
      Allows (k + 1) lo hi code v ∧ v / 64 ^ (k + 1) % 64 + 0x80 = b.toNat := by
    intro v
    unfold Allows
    have hdiv : v / 64 ^ (k + 1 + 1) = v / 64 ^ (k + 1) / 64 := by
      rw [Nat.div_div_eq_div_mul, Nat.pow_succ]
    rw [hdiv]
    omega
  refine ⟨by simp, by omega, by omega, by omega, ?_, ?_, ?_⟩
  · intro c
    rw [h.append_isPrefix_iff, hallows]
  · intro c hc
    have hpart : part <+: utf8EncodeChar c := (List.prefix_append part [b]).trans hc
    rw [h.length c hpart, List.length_append, List.length_singleton]
    omega
  · intro v hv
    exact h.valid v ((hallows v).1 hv).1

/-- A byte `b` within the bounds that is the last one completes the character. -/
private theorem complete (h : Underway part 0 lo hi code) {b : UInt8}
    (hb : lo ≤ b.toNat ∧ b.toNat ≤ hi) :
    utf8EncodeChar (Char.ofNat (code * 64 + (b.toNat - 0x80))) = part ++ [b] := by
  have hlo := h.lo_ge
  have hhi := h.hi_le
  have hallows : Allows 0 lo hi code (code * 64 + (b.toNat - 0x80)) := by
    simp only [Allows, Nat.reducePow, Nat.reduceAdd]
    omega
  have hval := val_ofNat (h.valid _ hallows)
  -- The character begins with these bytes, and has no more of them.
  have hbegins : part ++ [b] <+: utf8EncodeChar (Char.ofNat (code * 64 + (b.toNat - 0x80))) := by
    rw [h.append_isPrefix_iff, hval]
    refine ⟨hallows, ?_⟩
    simp only [Nat.reducePow]
    omega
  refine (hbegins.eq_of_length ?_).symm
  rw [h.length _ ((List.prefix_append part [b]).trans hbegins), List.length_append,
    List.length_singleton]

/-- A byte `b` out of the bounds leaves no character. -/
private theorem not_isPrefix (h : Underway part k lo hi code) {b : UInt8}
    (hb : ¬(lo ≤ b.toNat ∧ b.toNat ≤ hi)) (c : Char) : ¬part ++ [b] <+: utf8EncodeChar c := by
  rw [h.append_isPrefix_iff]
  rintro ⟨⟨-, hlo, hhi⟩, hbyte⟩
  rw [hbyte] at hlo hhi
  exact hb ⟨hlo, hhi⟩

private theorem exists_char (h : Underway part k lo hi code) : ∃ c, part <+: utf8EncodeChar c := by
  have hlo := h.lo_ge
  have hhi := h.hi_le
  have hle := h.lo_le_hi
  -- The least number within the bounds will do.
  have hpos : 0 < 64 ^ k := Nat.pow_pos (by omega)
  have hdiv : (code * 64 + (lo - 0x80)) * 64 ^ k / 64 ^ k = code * 64 + (lo - 0x80) :=
    Nat.mul_div_cancel _ hpos
  have hallows : Allows k lo hi code ((code * 64 + (lo - 0x80)) * 64 ^ k) := by
    rw [Allows, Nat.pow_succ, ← Nat.div_div_eq_div_mul, hdiv]
    omega
  exact ⟨Char.ofNat _, (h.chars _).2 ((val_ofNat (h.valid _ hallows)).symm ▸ hallows)⟩

/-- No character ends within the `part` that is under way. -/
private theorem encodeChar_not_isPrefix (h : Underway part k lo hi code) (c : Char) :
    ¬utf8EncodeChar c <+: part := by
  intro hc
  -- It would be the begin of one of the characters that are left.
  obtain ⟨d, hd⟩ := h.exists_char
  have hsize := h.length d hd
  have hshorter := hc.length_le
  rw [eq_of_encodeChar_isPrefix (hc.trans hd)] at hshorter
  omega

end Underway

/-! ## Malformed stretches -/

/-- The stretch `part` is malformed if no character ends within it or goes on with the next byte. -/
private theorem malformed_of_not_isPrefix {part rest : List UInt8} (hne : part ≠ [])
    (hbegins : part.length = 1 ∨ ∃ c, part <+: utf8EncodeChar c)
    (hwithin : ∀ c, ¬utf8EncodeChar c <+: part)
    (hnext : ∀ b ∈ rest.head?, ∀ c, ¬part ++ [b] <+: utf8EncodeChar c) : Malformed part rest := by
  -- A stretch that is longer than `part` has the byte after it.
  have hlonger : ∀ longer, longer <+: part ++ rest → part.length < longer.length →
      ∀ c, ¬longer <+: utf8EncodeChar c := by
    intro longer hlonger hlength c hc
    obtain ⟨more, rfl⟩ : part <+: longer :=
      List.prefix_of_prefix_length_le (List.prefix_append part rest) hlonger (by omega)
    cases more with
    | nil => simp at hlength
    | cons b more =>
      obtain ⟨rest', rfl⟩ := (List.prefix_append_right_inj part).1 hlonger
      have hbyte : part ++ [b] <+: part ++ b :: more := ⟨more, by simp⟩
      exact hnext b rfl c (hbyte.trans hc)
  refine ⟨hne, ?_, hbegins, hlonger⟩
  intro c hc
  by_cases hlength : part.length < (utf8EncodeChar c).length
  · exact hlonger _ hc hlength c List.prefix_rfl
  · exact hwithin c
      (List.prefix_of_prefix_length_le hc (List.prefix_append part rest) (by omega))

/-- A byte `b` that no character begins with is malformed. -/
private theorem malformed_singleton {b : UInt8} (h : ∀ c, ¬[b] <+: utf8EncodeChar c)
    (rest : List UInt8) : Malformed [b] rest := by
  refine malformed_of_not_isPrefix (by simp) (.inl rfl) ?_ ?_
  · intro c hc
    have hwhole : utf8EncodeChar c = [b] := by
      refine hc.eq_of_length (le_antisymm hc.length_le ?_)
      rw [length_encodeChar, List.length_singleton]
      omega
    exact h c (hwhole ▸ List.prefix_rfl)
  · intro d _ c hc
    exact h c ((List.prefix_append [b] [d]).trans hc)

/-- The `part` that is under way is malformed if it does not go on. -/
private theorem Underway.malformed {part : List UInt8} {k lo hi code : Nat}
    (h : Underway part k lo hi code) {rest : List UInt8}
    (hnext : ∀ b ∈ rest.head?, ∀ c, ¬part ++ [b] <+: utf8EncodeChar c) : Malformed part rest :=
  malformed_of_not_isPrefix h.ne_nil (.inr h.exists_char) h.encodeChar_not_isPrefix hnext

/-! ## The machine -/

/-- `FirstOf bs first rest`: the first character of `bs`, or `none` for a malformed stretch, and the
    bytes after it. -/
private inductive FirstOf : List UInt8 → Option Char → List UInt8 → Prop
  | char (c : Char) (rest : List UInt8) : FirstOf (utf8EncodeChar c ++ rest) (some c) rest
  | malformed {part rest : List UInt8} (h : Malformed part rest) : FirstOf (part ++ rest) none rest

/-- What `scan` has begun becomes a character, or a malformed stretch. -/
private theorem scan_underway {part : List UInt8} {k lo hi code : Nat}
    (h : Underway part k lo hi code) (rest : List UInt8) :
    ∃ first rest', FirstOf (part ++ rest) first rest' ∧
      scan (.inside k lo hi code) rest = first :: scan .between rest' := by
  -- With every byte that fits, `part` grows and the state goes on.
  induction rest generalizing part k lo hi code with
  | nil => exact ⟨none, [], .malformed (h.malformed (by simp)), by simp [scan]⟩
  | cons b rest ih =>
    by_cases hb : lo ≤ b.toNat ∧ b.toNat ≤ hi
    · have hpart : part ++ b :: rest = part ++ [b] ++ rest := by simp
      cases k with
      | zero =>
        refine ⟨some (Char.ofNat (code * 64 + (b.toNat - 0x80))), rest, ?_, scan_last hb rest⟩
        rw [hpart, ← h.complete hb]
        exact .char _ rest
      | succ k =>
        obtain ⟨first, rest', hfirst, hscan⟩ := ih (h.append hb)
        exact ⟨first, rest', hpart ▸ hfirst, (scan_further hb rest).trans hscan⟩
    · -- The byte that does not fit is read again as a first byte.
      refine ⟨none, b :: rest, .malformed (h.malformed ?_), by simp [scan, step, hb]⟩
      simpa using h.not_isPrefix hb

/-- `scan` reads what stands first, and then goes on with the rest. -/
private theorem scan_cons (b : UInt8) (bs : List UInt8) :
    ∃ first rest, FirstOf (b :: bs) first rest ∧
      scan .between (b :: bs) = first :: scan .between rest := by
  rcases start_cases b with ⟨c, hstart, hc⟩ | ⟨hstart, hnone⟩ | ⟨k, lo, hi, code, hstart, hunder⟩
  · have hbs : b :: bs = utf8EncodeChar c ++ bs := by rw [hc, List.singleton_append]
    exact ⟨some c, bs, hbs ▸ .char c bs, by simp [scan, step, hstart]⟩
  · exact ⟨none, bs, .malformed (malformed_singleton hnone bs), by simp [scan, step, hstart]⟩
  · obtain ⟨first, rest, hfirst, hscan⟩ := scan_underway hunder bs
    exact ⟨first, rest, hfirst, (scan_first hstart bs).trans hscan⟩

/-- A malformed stretch `part` is at least as long as any other one at its place. -/
private theorem Malformed.length_le {part rest part' rest' : List UInt8} (h : Malformed part rest)
    (h' : Malformed part' rest') (heq : part ++ rest = part' ++ rest') :
    part'.length ≤ part.length := by
  by_contra hlt
  have hpos : 0 < part.length := List.length_pos_iff.2 h.ne_nil
  rcases h'.begins with hone | ⟨c, hc⟩
  · omega
  · exact h.longest part' (heq ▸ List.prefix_append part' rest') (by omega) c hc

/-- There is only one malformed stretch at a place, so what follows it is determined. -/
private theorem Malformed.unique {part rest part' rest' : List UInt8} (h : Malformed part rest)
    (h' : Malformed part' rest') (heq : part ++ rest = part' ++ rest') : rest = rest' :=
  (List.append_inj heq (le_antisymm (h'.length_le h heq.symm) (h.length_le h' heq))).2

private theorem FirstOf.length_lt {bs rest : List UInt8} {first : Option Char}
    (h : FirstOf bs first rest) : rest.length < bs.length := by
  cases h with
  | char c rest => simp [Char.utf8Size_pos]
  | malformed hpart => simpa [List.length_pos_iff] using hpart.ne_nil

/-- `decode` reads what stands first, and then goes on with the rest. -/
private theorem exists_firstOf {bs : List UInt8} (h : bs ≠ []) :
    ∃ first rest, FirstOf bs first rest ∧
      decode bs = first.getD replacement :: decode rest := by
  cases bs with
  | nil => exact absurd rfl h
  | cons b bs =>
    obtain ⟨first, rest, hfirst, hscan⟩ := scan_cons b bs
    exact ⟨first, rest, hfirst, by simp [decode, hscan]⟩

private theorem decodesTo_decode (bs : List UInt8) : DecodesTo bs (decode bs) := by
  -- What stands first takes at least one byte, so the rest is shorter.
  induction hlength : bs.length using Nat.strong_induction_on generalizing bs with
  | _ n ih =>
    by_cases hbs : bs = []
    · subst hbs
      exact .nil
    · obtain ⟨first, rest, hfirst, hdecode⟩ := exists_firstOf hbs
      have hrest : DecodesTo rest (decode rest) := ih _ (hlength ▸ hfirst.length_lt) rest rfl
      rw [hdecode]
      cases hfirst with
      | char c rest => exact .char c hrest
      | malformed hpart => exact .malformed hpart hrest

/-- A malformed stretch is decoded as one `replacement`. -/
private theorem decode_malformed {part rest : List UInt8} (h : Malformed part rest) :
    decode (part ++ rest) = replacement :: decode rest := by
  obtain ⟨first, rest', hfirst, hdecode⟩ :=
    exists_firstOf (List.append_ne_nil_of_left_ne_nil h.ne_nil rest)
  rw [hdecode]
  generalize hbs : part ++ rest = bs at hfirst
  cases hfirst with
  | char c rest' => exact absurd (hbs ▸ List.prefix_append _ rest') (h.noChar c)
  | malformed h' => rw [h.unique h' hbs, Option.getD_none]

/-- The text `decode bs` is put together from the characters that stand in `bs`, and from one
    replacement for each malformed stretch. -/
theorem decode_eq_iff_decodesTo {bs : List UInt8} {cs : List Char} :
    decode bs = cs ↔ DecodesTo bs cs := by
  constructor
  · rintro rfl
    exact decodesTo_decode bs
  · intro h
    induction h with
    | nil => rfl
    | char c h ih => simp [decode, scan_encodeChar, ← ih]
    | malformed hpart h ih => rw [decode_malformed hpart, ih]

/-- Bytes are the encoding of `cs` exactly if they are read as `cs` without a malformed stretch. -/
theorem decode?_eq_some_iff_encode {bs : List UInt8} {cs : List Char} :
    decode? bs = some cs ↔ encode cs = bs := by
  constructor
  · rw [decode?_eq_some_iff]
    intro h
    induction cs generalizing bs with
    | nil =>
      cases bs with
      | nil => rfl
      | cons b bs =>
        obtain ⟨first, rest, -, hscan⟩ := scan_cons b bs
        rw [hscan] at h
        exact nomatch h
    | cons c cs ih =>
      cases bs with
      | nil => exact nomatch h
      | cons b bs =>
        obtain ⟨first, rest, hfirst, hscan⟩ := scan_cons b bs
        rw [hscan, List.map_cons] at h
        obtain ⟨rfl, hrest⟩ := List.cons.inj h
        -- A character stands first, so the bytes begin with its encoding.
        generalize b :: bs = all at hfirst
        cases hfirst with
        | char c rest => rw [encode, List.flatMap_cons, ← encode, ih hrest]
  · rintro rfl
    exact decode?_encode cs

-- An encoding that is too long, one of a surrogate and one that is too large break up into single
-- bytes.  The last character is cut off, and its two bytes are one stretch.
example : decode [0xC0, 0x80, 0xED, 0xA0, 0x80, 0xF4, 0x90, 0xE2, 0x82, 0x0A] =
    List.replicate 8 replacement ++ ['\n'] := by
  decide

end MapperSweep.Text.Utf8
