import RosettaGateway.Text.Hex

/-!
# Numbers as bytes

The highest byte comes first. `naturalBytes` has no leading zero, so that each number has one form
and zero has the empty one; `fixedBytes` has a given width.
-/

namespace RosettaGateway.BigEndian

/-- The number that bytes stand for. -/
def toNat (bytes : Octets) : Nat := bytes.foldl (fun acc b => acc * 256 + b.toNat) 0

/-- The bytes of a number without a leading zero. -/
def naturalBytes (n : Nat) : Octets :=
  if n = 0 then [] else naturalBytes (n / 256) ++ [UInt8.ofNat (n % 256)]
termination_by n
decreasing_by omega

/-- The lowest bytes of a number, so many of them. -/
def fixedBytes : Nat → Nat → Octets
  | 0, _ => []
  | width + 1, n => fixedBytes width (n / 256) ++ [UInt8.ofNat (n % 256)]

@[simp] theorem length_fixedBytes (width n : Nat) : (fixedBytes width n).length = width := by
  induction width generalizing n with
  | zero => rfl
  | succ width ih => simp [fixedBytes, ih]

theorem toNat_append (bytes : Octets) (b : UInt8) :
    toNat (bytes ++ [b]) = toNat bytes * 256 + b.toNat := by
  simp [toNat, List.foldl_append]

/-- Reading the bytes of a number gives it back. -/
@[simp] theorem toNat_naturalBytes (n : Nat) : toNat (naturalBytes n) = n := by
  induction n using naturalBytes.induct with
  | case1 => simp [naturalBytes, toNat]
  | case2 n h ih =>
    rw [naturalBytes, if_neg h, toNat_append, ih]
    have : (UInt8.ofNat (n % 256)).toNat = n % 256 := by
      simp [UInt8.toNat_ofNat']
    rw [this]
    omega

end RosettaGateway.BigEndian
