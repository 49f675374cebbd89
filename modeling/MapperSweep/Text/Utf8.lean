/-!
# UTF-8

Bytes to characters, by a machine that reads one byte at a time.  A byte that cannot continue the
character under way ends it as malformed and starts afresh, so every malformed stretch is as long
as it can be and never swallows a byte that begins something valid.

* `scan_append_ascii`    what follows a byte of ASCII is read as if it stood alone
* `decode_append_ascii`  the same for the decoded text
-/

namespace MapperSweep.Text.Utf8

/-- Where the machine stands: between characters, or inside one.  Inside, `missing + 1` bytes are
    still to come, the next one has to lie between `lo` and `hi`, and `code` is the value read so
    far. -/
inductive State where
  | between
  | inside (missing lo hi code : Nat)
deriving DecidableEq

/-- What the byte `b` does when no character is under way: the character or malformed stretch
    (`none`) that it completes, if any, and the next state. -/
def start (b : Nat) : List (Option Char) × State :=
  if b < 0x80 then ([some (Char.ofNat b)], .between)
  else if b < 0xC2 then ([none], .between)
  else if b < 0xE0 then ([], .inside 0 0x80 0xBF (b - 0xC0))
  else if b = 0xE0 then ([], .inside 1 0xA0 0xBF 0)
  else if b = 0xED then ([], .inside 1 0x80 0x9F 0xD)
  else if b < 0xF0 then ([], .inside 1 0x80 0xBF (b - 0xE0))
  else if b = 0xF0 then ([], .inside 2 0x90 0xBF 0)
  else if b < 0xF4 then ([], .inside 2 0x80 0xBF (b - 0xF0))
  else if b = 0xF4 then ([], .inside 2 0x80 0x8F 4)
  else ([none], .between)

/-- What the byte `b` does in the state `s`. -/
def step (s : State) (b : Nat) : List (Option Char) × State :=
  match s with
  | .between => start b
  | .inside missing lo hi code =>
    if lo ≤ b ∧ b ≤ hi then
      let code := code * 64 + (b - 0x80)
      match missing with
      | 0 => ([some (Char.ofNat code)], .between)
      | k + 1 => ([], .inside k 0x80 0xBF code)
    else
      let (out, s) := start b
      (none :: out, s)

/-- The characters of a byte string, `none` for each malformed stretch. -/
def scan (s : State) : List UInt8 → List (Option Char)
  | [] => if s = .between then [] else [none]
  | b :: bs =>
    let (out, s) := step s b.toNat
    out ++ scan s bs

/-- The character that stands for a malformed stretch of bytes in `decode`. -/
def replacement : Char := Char.ofNat 0xFFFD

/-- The text of the bytes `bs`, each malformed stretch replaced by `replacement`. -/
def decode (bs : List UInt8) : List Char := (scan .between bs).map (·.getD replacement)

/-- The text of the bytes `bs`, if they are well-formed. -/
def decode? (bs : List UInt8) : Option (List Char) := (scan .between bs).mapM id

/-- The bytes of the text `cs`. -/
def encode (cs : List Char) : List UInt8 := cs.flatMap String.utf8EncodeChar

/-- A state that `step` reaches from `between`. -/
def Reachable : State → Prop
  | .between => True
  | .inside _ lo _ _ => 0x80 ≤ lo

theorem reachable_start (b : Nat) : Reachable (start b).2 := by
  unfold start
  repeat' split
  all_goals simp [Reachable]

theorem reachable_step {s : State} (b : Nat) : Reachable (step s b).2 := by
  unfold step
  cases s with
  | between => exact reachable_start b
  | inside missing lo hi code =>
    dsimp only
    split
    · cases missing <;> simp [Reachable]
    · exact reachable_start b

/-- A byte `b` of ASCII ends whatever was under way. -/
theorem step_ascii {s : State} (hs : Reachable s) {b : Nat} (hb : b < 0x80) :
    step s b =
      (if s = .between then [some (Char.ofNat b)] else [none, some (Char.ofNat b)], .between) := by
  cases s with
  | between => simp [step, start, hb]
  | inside k lo hi code =>
    have hlo : 0x80 ≤ lo := hs
    have hout : ¬(lo ≤ b ∧ b ≤ hi) := by omega
    simp [step, hout, start, hb]

/-- What follows a byte `a` of ASCII is read as if it stood alone. -/
theorem scan_append_ascii {s : State} (hs : Reachable s) {a : UInt8} (ha : a.toNat < 0x80)
    (as bs : List UInt8) :
    scan s (as ++ a :: bs) = scan s as ++ some (Char.ofNat a.toNat) :: scan .between bs := by
  induction as generalizing s with
  | nil =>
    simp only [List.nil_append, scan, step_ascii hs ha]
    by_cases hb : s = .between <;> simp [hb]
  | cons b rest ih => simp [scan, ih (reachable_step b.toNat)]

/-- Malformed stretches do not reach over a byte `a` of ASCII. -/
theorem decode_append_ascii {a : UInt8} (ha : a.toNat < 0x80) (as bs : List UInt8) :
    decode (as ++ a :: bs) = decode as ++ Char.ofNat a.toNat :: decode bs := by
  simp [decode, scan_append_ascii (s := .between) trivial ha]

end MapperSweep.Text.Utf8
