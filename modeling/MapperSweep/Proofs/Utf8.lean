import MapperSweep.Text.Utf8

/-!
# Encoding and decoding

The machine that reads UTF-8 gives back what was encoded.  A character of several bytes is followed
through its states: the first byte says how many follow, and every further byte adds six bits.

## Key results

- `scan_encodeChar`: the bytes of one character
- `decode?_encode`: the bytes of a text
- `decode?_append`: the bytes of one text after the other
- `le_of_mem_encode`: no byte of a text without control characters is a control character
-/

namespace MapperSweep.Text.Utf8

/-! ## One byte -/

/-- `scan` of a first byte `b` that does not stand alone. -/
theorem scan_first {b : UInt8} {s : State} (h : start b.toNat = ([], s)) (bs : List UInt8) :
    scan .between (b :: bs) = scan s bs := by
  simp [scan, step, h]

/-- `scan` of a further byte `b` that is not the last one. -/
theorem scan_further {k lo hi code : Nat} {b : UInt8} (h : lo ≤ b.toNat ∧ b.toNat ≤ hi)
    (bs : List UInt8) :
    scan (.inside (k + 1) lo hi code) (b :: bs) =
      scan (.inside k 0x80 0xBF (code * 64 + (b.toNat - 0x80))) bs := by
  simp [scan, step, h]

/-- The last byte `b` completes the character. -/
theorem scan_last {lo hi code : Nat} {b : UInt8} (h : lo ≤ b.toNat ∧ b.toNat ≤ hi)
    (bs : List UInt8) :
    scan (.inside 0 lo hi code) (b :: bs) =
      some (Char.ofNat (code * 64 + (b.toNat - 0x80))) :: scan .between bs := by
  simp [scan, step, h]

/-- The first byte of two, with the bits `n`. -/
private theorem start_two {n : Nat} (hlow : 2 ≤ n) (hhigh : n < 32) :
    start (n + 192) = ([], .inside 0 0x80 0xBF n) := by
  have h1 : ¬n + 192 < 0x80 := by omega
  have h2 : ¬n + 192 < 0xC2 := by omega
  have h3 : n + 192 < 0xE0 := by omega
  simp [start, h1, h2, h3]

/-- The first byte of three, with the bits `n`.  What may follow is restricted where the number
    would be too small or would be a surrogate. -/
private theorem start_three {n : Nat} (h : n < 16) :
    ∃ lo hi, start (n + 224) = ([], .inside 1 lo hi n) ∧
      ∀ t, 0x80 ≤ t → t ≤ 0xBF → (n = 0 → 0xA0 ≤ t) → (n = 13 → t ≤ 0x9F) → lo ≤ t ∧ t ≤ hi := by
  have h1 : ¬n + 224 < 0x80 := by omega
  have h2 : ¬n + 224 < 0xC2 := by omega
  have h3 : ¬n + 224 < 0xE0 := by omega
  by_cases hzero : n = 0
  · exact ⟨0xA0, 0xBF, by simp [start, hzero], fun t _ hhigh hlow _ => ⟨hlow hzero, hhigh⟩⟩
  by_cases hsurrogate : n = 13
  · exact ⟨0x80, 0x9F, by simp [start, hsurrogate],
      fun t hlow _ _ hhigh => ⟨hlow, hhigh hsurrogate⟩⟩
  have h5 : ¬n + 224 = 0xED := by omega
  have h6 : n + 224 < 0xF0 := by omega
  exact ⟨0x80, 0xBF, by simp [start, h1, h2, h3, h5, h6, hzero],
    fun t hlow hhigh _ _ => ⟨hlow, hhigh⟩⟩

/-- The first byte of four, with the bits `n`.  What may follow is restricted where the number would
    be too small or too large. -/
private theorem start_four {n : Nat} (h : n < 5) :
    ∃ lo hi, start (n + 240) = ([], .inside 2 lo hi n) ∧
      ∀ t, 0x80 ≤ t → t ≤ 0xBF → (n = 0 → 0x90 ≤ t) → (n = 4 → t ≤ 0x8F) → lo ≤ t ∧ t ≤ hi := by
  have h1 : ¬n + 240 < 0x80 := by omega
  have h2 : ¬n + 240 < 0xC2 := by omega
  have h3 : ¬n + 240 < 0xE0 := by omega
  have h4 : ¬n + 240 = 0xE0 := by omega
  have h5 : ¬n + 240 = 0xED := by omega
  have h6 : ¬n + 240 < 0xF0 := by omega
  by_cases hzero : n = 0
  · exact ⟨0x90, 0xBF, by simp [start, hzero], fun t _ hhigh hlow _ => ⟨hlow hzero, hhigh⟩⟩
  by_cases hlast : n = 4
  · exact ⟨0x80, 0x8F, by simp [start, hlast], fun t hlow _ _ hhigh => ⟨hlow, hhigh hlast⟩⟩
  have h8 : n + 240 < 0xF4 := by omega
  exact ⟨0x80, 0xBF, by simp [start, h1, h2, h3, h4, h5, h6, h8, hzero],
    fun t hlow hhigh _ _ => ⟨hlow, hhigh⟩⟩

/-! ## One character -/

/-- `scan` reads the bytes of `c` as `c`. -/
theorem scan_encodeChar (c : Char) (rest : List UInt8) :
    scan .between (String.utf8EncodeChar c ++ rest) = some c :: scan .between rest := by
  have hchar : Char.ofNat c.val.toNat = c := Char.ofNat_toNat c
  have hvalid : c.val.toNat < 0xD800 ∨ 0xDFFF < c.val.toNat ∧ c.val.toNat < 0x110000 := c.valid
  have hbyte : ∀ {n : Nat}, n < 256 → (UInt8.ofNat n).toNat = n :=
    fun h => UInt8.toNat_ofNat_of_lt' h
  -- From here on only the number of the character matters, and the bits of its bytes add up to it.
  generalize hv : c.val.toNat = v at hchar hvalid
  rw [String.utf8EncodeChar]
  simp only [hv]
  split
  · -- One byte, which is the number itself.
    have hb : (UInt8.ofNat v).toNat = v := hbyte (by omega)
    have hstart : start v = ([some c], .between) := by
      rw [start, if_pos (by omega), hchar]
    simp [scan, step, hb, hstart]
  split
  · -- Two bytes, with five and six bits.
    have hb₁ : (UInt8.ofNat (v / 64 % 32 + 192)).toNat = v / 64 % 32 + 192 := hbyte (by omega)
    have hb₂ : (UInt8.ofNat (v % 64 + 128)).toNat = v % 64 + 128 := hbyte (by omega)
    have hcode : v / 64 % 32 * 64 + (v % 64 + 128 - 0x80) = v := by omega
    have hstart : start (v / 64 % 32 + 192) = ([], .inside 0 0x80 0xBF (v / 64 % 32)) :=
      start_two (by omega) (by omega)
    rw [List.cons_append, List.cons_append, List.nil_append, scan_first (hb₁ ▸ hstart),
      scan_last (by omega), hb₂, hcode, hchar]
  split
  · -- Three bytes.  The second one avoids what is too small and the surrogates.
    have hb₁ : (UInt8.ofNat (v / 4096 % 16 + 224)).toNat = v / 4096 % 16 + 224 := hbyte (by omega)
    have hb₂ : (UInt8.ofNat (v / 64 % 64 + 128)).toNat = v / 64 % 64 + 128 := hbyte (by omega)
    have hb₃ : (UInt8.ofNat (v % 64 + 128)).toNat = v % 64 + 128 := hbyte (by omega)
    have hcode :
        (v / 4096 % 16 * 64 + (v / 64 % 64 + 128 - 0x80)) * 64 + (v % 64 + 128 - 0x80) = v := by
      omega
    obtain ⟨lo, hi, hstart, hrange⟩ : ∃ lo hi, start (v / 4096 % 16 + 224) = _ ∧ _ :=
      start_three (by omega)
    have hsecond : lo ≤ (UInt8.ofNat (v / 64 % 64 + 128)).toNat ∧
        (UInt8.ofNat (v / 64 % 64 + 128)).toNat ≤ hi := by
      rw [hb₂]
      exact hrange _ (by omega) (by omega) (by omega) (by omega)
    rw [List.cons_append, List.cons_append, List.cons_append, List.nil_append,
      scan_first (hb₁ ▸ hstart), scan_further hsecond, scan_last (by omega), hb₂, hb₃, hcode,
      hchar]
  · -- Four bytes.  The second one avoids what is too small and too large.
    have hb₁ : (UInt8.ofNat (v / 262144 % 8 + 240)).toNat = v / 262144 % 8 + 240 :=
      hbyte (by omega)
    have hb₂ : (UInt8.ofNat (v / 4096 % 64 + 128)).toNat = v / 4096 % 64 + 128 := hbyte (by omega)
    have hb₃ : (UInt8.ofNat (v / 64 % 64 + 128)).toNat = v / 64 % 64 + 128 := hbyte (by omega)
    have hb₄ : (UInt8.ofNat (v % 64 + 128)).toNat = v % 64 + 128 := hbyte (by omega)
    have hcode : ((v / 262144 % 8 * 64 + (v / 4096 % 64 + 128 - 0x80)) * 64 +
        (v / 64 % 64 + 128 - 0x80)) * 64 + (v % 64 + 128 - 0x80) = v := by
      omega
    obtain ⟨lo, hi, hstart, hrange⟩ : ∃ lo hi, start (v / 262144 % 8 + 240) = _ ∧ _ :=
      start_four (by omega)
    have hsecond : lo ≤ (UInt8.ofNat (v / 4096 % 64 + 128)).toNat ∧
        (UInt8.ofNat (v / 4096 % 64 + 128)).toNat ≤ hi := by
      rw [hb₂]
      exact hrange _ (by omega) (by omega) (by omega) (by omega)
    rw [List.cons_append, List.cons_append, List.cons_append, List.cons_append, List.nil_append,
      scan_first (hb₁ ▸ hstart), scan_further hsecond, scan_further (by omega),
      scan_last (by omega), hb₂, hb₃, hb₄, hcode, hchar]

/-! ## Texts -/

/-- `scan` reads the bytes of `cs` as its characters. -/
theorem scan_encode (cs : List Char) : scan .between (encode cs) = cs.map some := by
  induction cs with
  | nil => rfl
  | cons c cs ih =>
    have hcons : encode (c :: cs) = String.utf8EncodeChar c ++ encode cs := rfl
    rw [hcons, scan_encodeChar, ih, List.map_cons]

/-- `decode?` reads `cs` back from its bytes. -/
theorem decode?_encode (cs : List Char) : decode? (encode cs) = some cs := by
  -- Every character was recognized, so none of the text is missing.
  rw [decode?, scan_encode]
  induction cs with
  | nil => rfl
  | cons c cs ih => simp [ih]

/-- `decode?` gives a text if `scan` finds a character in every stretch. -/
theorem decode?_eq_some_iff {bs : List UInt8} {cs : List Char} :
    decode? bs = some cs ↔ scan .between bs = cs.map some := by
  rw [decode?]
  generalize scan .between bs = scanned
  induction scanned generalizing cs with
  | nil => cases cs <;> simp
  | cons c scanned ih =>
    cases c with
    | none => cases cs <;> simp
    | some c =>
      cases cs with
      | nil => simp [Option.bind_eq_some_iff]
      | cons d cs =>
        simp only [List.mapM_cons, id, Option.bind_eq_bind, Option.bind_some, Option.pure_def,
          Option.bind_eq_some_iff, Option.some.injEq, List.cons.injEq, List.map_cons, ← ih]
        exact ⟨fun ⟨_, hread, hc, hcs⟩ => ⟨hc, hcs ▸ hread⟩,
          fun ⟨hc, hread⟩ => ⟨cs, hread, hc, rfl⟩⟩

/-- What `decode?` reads has no malformed stretch for `decode` to replace. -/
theorem decode_of_decode? {bs : List UInt8} {cs : List Char} (h : decode? bs = some cs) :
    decode bs = cs := by
  rw [decode, decode?_eq_some_iff.1 h, List.map_map]
  exact List.map_id cs

/-- After bytes `as` without a malformed stretch no character is under way. -/
private theorem scan_append {s : State} {as : List UInt8} (h : none ∉ scan s as) (bs : List UInt8) :
    scan s (as ++ bs) = scan s as ++ scan .between bs := by
  induction as generalizing s with
  | nil =>
    by_cases hs : s = .between
    · subst hs
      rfl
    · exact absurd (by simp [scan, hs]) h
  | cons b as ih =>
    have hcons : ∀ bs, scan s (b :: bs) = (step s b.toNat).1 ++ scan (step s b.toNat).2 bs :=
      fun _ => rfl
    rw [hcons, List.mem_append, not_or] at h
    rw [List.cons_append, hcons, hcons, List.append_assoc, ih h.2]

/-- Bytes `as` that have a text are decoded before what follows them. -/
theorem decode?_append {as bs : List UInt8} {cs ds : List Char} (has : decode? as = some cs)
    (hbs : decode? bs = some ds) : decode? (as ++ bs) = some (cs ++ ds) := by
  rw [decode?_eq_some_iff] at has hbs ⊢
  have hwhole : none ∉ scan .between as := by
    rw [has]
    simp
  rw [scan_append hwhole, has, hbs, List.map_append]

theorem encode_append (as bs : List Char) : encode (as ++ bs) = encode as ++ encode bs :=
  List.flatMap_append

/-- A text `cs` without control characters has no bytes of control characters. -/
theorem le_of_mem_encode {cs : List Char} (h : ∀ c ∈ cs, 0x20 ≤ c.toNat) {b : UInt8}
    (hb : b ∈ encode cs) : 0x20 ≤ b.toNat := by
  obtain ⟨c, hc, hmem⟩ := List.mem_flatMap.1 hb
  have hlow : 0x20 ≤ c.val.toNat := h c hc
  have hvalid : c.val.toNat < 0x110000 := by
    have hcases : c.val.toNat < 0xD800 ∨ 0xDFFF < c.val.toNat ∧ c.val.toNat < 0x110000 := c.valid
    omega
  rw [String.utf8EncodeChar] at hmem
  generalize c.val.toNat = v at hlow hvalid hmem
  have hbyte : ∀ {n : Nat}, n < 256 → 0x20 ≤ n → 0x20 ≤ (UInt8.ofNat n).toNat := by
    intro n hn hle
    rw [UInt8.toNat_ofNat_of_lt' hn]
    exact hle
  split at hmem
  · obtain rfl := List.mem_singleton.1 hmem
    exact hbyte (by omega) hlow
  -- The bytes of longer characters are above all of ASCII.
  split at hmem
  · simp only [List.mem_cons, List.not_mem_nil, or_false] at hmem
    rcases hmem with rfl | rfl <;> exact hbyte (by omega) (by omega)
  split at hmem
  · simp only [List.mem_cons, List.not_mem_nil, or_false] at hmem
    rcases hmem with rfl | rfl | rfl <;> exact hbyte (by omega) (by omega)
  · simp only [List.mem_cons, List.not_mem_nil, or_false] at hmem
    rcases hmem with rfl | rfl | rfl | rfl <;> exact hbyte (by omega) (by omega)

end MapperSweep.Text.Utf8
