/-!
# Values as bytes

Values are written as bytes one behind the other, each in a form that shows where it ends. A taker
takes a value off the front of a list of bytes, and fails if it does not start with one.

## Main definitions

* `Raceway.Bytes.ofWord`, `Raceway.Bytes.ofNat`, `Raceway.Bytes.ofText`, `Raceway.Bytes.ofFlags`:
  the bytes of a value.
* `Raceway.Bytes.Taker`: taking a value off the front of bytes.
* `Raceway.Bytes.pack` and `Raceway.Bytes.unpack?`: bytes in packed form.

## Main results

* `Raceway.Bytes.nat_ofNat_append`: a written number is taken back.
-/

namespace Raceway.Bytes

/-- Takes a value off the front of bytes. -/
abbrev Taker := StateT (List UInt8) Option

/-! ### Single bytes and words -/

/-- The bytes of a word, the low byte first. -/
def ofWord (w : UInt32) : List UInt8 :=
  [w.toUInt8, (w >>> 8).toUInt8, (w >>> 16).toUInt8, (w >>> 24).toUInt8]

/-- The word of four bytes, the low byte first. -/
def toWord (b₀ b₁ b₂ b₃ : UInt8) : UInt32 :=
  b₀.toUInt32 ||| (b₁.toUInt32 <<< 8) ||| (b₂.toUInt32 <<< 16) ||| (b₃.toUInt32 <<< 24)

/-- Take a byte. -/
def byte : Taker UInt8
  | [] => none
  | b :: rest => some (b, rest)

/-- Take a word. -/
def word : Taker UInt32
  | b₀ :: b₁ :: b₂ :: b₃ :: rest => some (toWord b₀ b₁ b₂ b₃, rest)
  | _ => none

/-! ### Natural numbers -/

/-- The bytes of a natural number: 255 as often as it goes into the number, and then what is
left. -/
def ofNat (n : Nat) : List UInt8 :=
  List.replicate (n / 255) 255 ++ [UInt8.ofNat (n % 255)]

/-- Take a natural number. -/
def nat : Taker Nat
  | [] => none
  | b :: rest =>
    if b = 255 then (nat rest).map fun (n, rest) => (n + 255, rest) else some (b.toNat, rest)

private theorem nat_replicate_append (k : Nat) {r : Nat} (hr : r < 255) (rest : List UInt8) :
    nat (List.replicate k 255 ++ UInt8.ofNat r :: rest) = some (255 * k + r, rest) := by
  have htoNat : (UInt8.ofNat r).toNat = r := by rw [UInt8.toNat_ofNat']; omega
  induction k with
  | zero =>
    have hne : UInt8.ofNat r ≠ 255 := fun h => by
      rw [h] at htoNat
      exact absurd htoNat (by simp; omega)
    simp [nat, hne, htoNat]
  | succ k ih =>
    rw [List.replicate_succ, List.cons_append, nat, if_pos rfl, ih, Option.map_some]
    simp only [Option.some.injEq, Prod.mk.injEq, and_true]
    omega

theorem nat_ofNat_append (n : Nat) (rest : List UInt8) :
    nat (ofNat n ++ rest) = some (n, rest) := by
  rw [ofNat, List.append_assoc, List.singleton_append,
    nat_replicate_append _ (Nat.mod_lt n (by decide)), Nat.div_add_mod]

/-! ### Texts -/

/-- The bytes of a text: their number, and then the bytes themselves. -/
def ofText (s : String) : List UInt8 :=
  let bytes := s.toUTF8.data.toList
  ofNat bytes.length ++ bytes

/-- Take a number of bytes. -/
def take (n : Nat) : Taker (List UInt8) := fun bytes =>
  let (front, rest) := bytes.splitAt n
  if front.length = n then some (front, rest) else none

/-- Take a text. -/
def text : Taker String := do
  let front ← take (← nat)
  StateT.lift (String.fromUTF8? ⟨front.toArray⟩)

/-! ### Flags -/

/-- The byte of eight flags, the first one in the low bit. -/
def ofEight (flag : Nat → Bool) : UInt8 :=
  ⟨BitVec.ofBoolListLE
    [flag 0, flag 1, flag 2, flag 3, flag 4, flag 5, flag 6, flag 7]⟩

/-- The bytes of flags, eight of them in each byte. -/
def ofFlags (flags : Array Bool) : List UInt8 :=
  (List.range ((flags.size + 7) / 8)).map fun j => ofEight fun k => flags.getD (8 * j + k) false

/-- A flag in bytes of flags. -/
def flagAt (bytes : Array UInt8) (i : Nat) : Bool :=
  (bytes.getD (i / 8) 0).toNat.testBit (i % 8)

/-- Take a number of flags. -/
def flags (n : Nat) : Taker (List Bool) := do
  let bytes ← take ((n + 7) / 8)
  return (List.range n).map (flagAt bytes.toArray)

/-! ### Packed bytes -/

/-- The mark of a number of bytes that stand for themselves: the number in the high half of a byte,
or 15 there and the rest of the number behind it. -/
def runMark (n : Nat) : List UInt8 :=
  if n < 15 then [UInt8.ofNat (16 * n)] else 0xF0 :: ofNat (n - 15)

/-- Take the mark of a number of bytes that stand for themselves. -/
def run : Taker Nat := do
  let b ← byte
  if b = 0xF0 then return 15 + (← nat)
  else if b.toNat % 16 = 0 then return b.toNat / 16
  else failure

/-- Bytes in packed form: the low word of their number, and all of them as bytes that stand for
themselves. -/
def pack (bytes : List UInt8) : List UInt8 :=
  ofWord (UInt32.ofNat bytes.length) ++ runMark bytes.length ++ bytes

/-- The bytes that are packed. -/
def unpack? (packed : List UInt8) : Option (List UInt8) := do
  let (size, rest) ← word packed
  let (n, bytes) ← run rest
  if bytes.length = n ∧ UInt32.ofNat n = size then some bytes else none

/-! ### Whole values -/

/-- The value that the bytes hold, if they hold one and nothing else. -/
def whole {α : Type} (t : Taker α) (bytes : List UInt8) : Option α :=
  match t bytes with
  | some (a, []) => some a
  | _ => none

end Raceway.Bytes
