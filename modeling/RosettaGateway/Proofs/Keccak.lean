import RosettaGateway.Hash.Keccak

/-!
# Hashes of given bytes

To evaluate a hash in a proof, each of its operations is done by the kernel, which is good at
natural numbers and at little else. Here the permutation is done with lists of numbers in place of
vectors of words, and each list is evaluated before it is handed on: otherwise the lanes of a round
would be looked up in the rounds before it, which are not evaluated yet.

`keccak256_eq` says that this is the same hash. It is all that is used of this module.
-/

namespace RosettaGateway.Keccak

namespace Numbers

/-! ### Evaluation -/

section Forced

variable {α : Type}

/-- Hands a number on once it is evaluated, since its cases are told apart. -/
def forced (n : Nat) (next : Nat → α) : α :=
  match n with
  | 0 => next 0
  | k + 1 => next (k + 1)

theorem forced_eq (n : Nat) (next : Nat → α) : forced n next = next n := by
  cases n <;> rfl

/-- Hands numbers on once they are evaluated. -/
def forcedAll : List Nat → (List Nat → α) → α
  | [], next => next []
  | n :: ns, next => forced n fun n => forcedAll ns fun ns => next (n :: ns)

theorem forcedAll_eq (ns : List Nat) (next : List Nat → α) : forcedAll ns next = next ns := by
  induction ns generalizing next with
  | nil => rfl
  | cons n ns ih => rw [forcedAll, forced_eq, ih]

end Forced

/-! ### Steps of a round -/

/-- The lane of a number, counted around. -/
def lane (s : List Nat) (i : Nat) : Nat := s.getD (i % 25) 0

/-- Rotation to the left. -/
def rotate (w n : Nat) : Nat :=
  if n = 0 then w
  else
    w <<< (n % 64) % UInt64.size ||| w >>> ((UInt64.size - n + 64) % UInt64.size % 64)

/-- Adds to each lane the parities of the two neighbouring columns. -/
def theta (a : List Nat) (next : List Nat → List Nat) : List Nat :=
  let parities := List.ofFn fun x : Fin 5 =>
    lane a x ^^^ lane a (x + 5) ^^^ lane a (x + 10) ^^^ lane a (x + 15) ^^^ lane a (x + 20)
  forcedAll parities fun parity =>
    let mixed := List.ofFn fun x : Fin 5 =>
      parity.getD ((x + 4) % 5) 0 ^^^ rotate (parity.getD ((x + 1) % 5) 0) 1
    forcedAll mixed fun mix =>
      forcedAll (List.ofFn fun i : Fin 25 => lane a i ^^^ mix.getD (i % 5) 0) next

/-- By how much each lane is rotated. -/
def turns : List Nat :=
  [0, 1, 62, 28, 27, 36, 44, 6, 55, 20, 3, 10, 43, 25, 39, 41, 45, 15, 21, 8, 18, 2, 61, 56, 14]

/-- Rotates the lanes and moves each to its new place. -/
def rhoPi (a : List Nat) (next : List Nat → List Nat) : List Nat :=
  let moved := List.ofFn fun i : Fin 25 =>
    let source := (i.val % 5 + 3 * (i.val / 5)) % 5 + 5 * (i.val % 5)
    rotate (lane a source) (lane turns source)
  forcedAll moved next

/-- Combines each lane with the two behind it in its row. -/
def chi (b : List Nat) (next : List Nat → List Nat) : List Nat :=
  let combined := List.ofFn fun i : Fin 25 =>
    let x := i.val % 5
    let row := i.val - x
    lane b i ^^^
      ((UInt64.size - 1 - lane b (row + (x + 1) % 5)) &&& lane b (row + (x + 2) % 5))
  forcedAll combined next

/-- The rounds with some constants. -/
def rounds : List UInt64 → List Nat → List Nat
  | [], a => a
  | constant :: constants, a =>
    theta a fun a => rhoPi a fun a => chi a fun b =>
      forced (lane b 0 ^^^ constant.toNat) fun first => rounds constants (b.set 0 first)

/-- Adds a block to the state and permutes. -/
def absorb (s : List Nat) (block : Octets) : List Nat :=
  let added := List.ofFn fun i : Fin 25 =>
    if i.val < 17 then lane s i ^^^ (word ((block.drop (8 * i.val)).take 8)).toNat else lane s i
  forcedAll added (rounds roundConstants)

/-- Absorbs so many blocks, one after the other. -/
def absorbBlocks : Nat → List Nat → Octets → List Nat
  | 0, s, _ => s
  | n + 1, s, bytes => absorbBlocks n (absorb s (bytes.take rate)) (bytes.drop rate)

/-- The hash of a byte string. -/
def hash (message : Octets) : Hash :=
  let padded := pad message
  let s := absorbBlocks (padded.length / rate) (List.replicate 25 0) padded
  ⟨wordBytes (.ofNat (lane s 0)) ++ wordBytes (.ofNat (lane s 1)) ++
    wordBytes (.ofNat (lane s 2)) ++ wordBytes (.ofNat (lane s 3)), rfl⟩

/-! ### Words and their numbers -/

/-- The numbers of a state. -/
def numbers (s : State) : List Nat := s.toList.map UInt64.toNat

theorem numbers_ofFn (f : Fin 25 → UInt64) :
    numbers (Vector.ofFn f) = List.ofFn fun i => (f i).toNat := by
  rw [numbers, Vector.toList_ofFn, List.map_ofFn]
  rfl

theorem lane_numbers (s : State) (i : Nat) : lane (numbers s) i = (Keccak.lane s i).toNat := by
  have h_bound : i % 25 < 25 := Nat.mod_lt _ (by decide)
  simp [lane, numbers, Keccak.lane, List.getD_eq_getElem?_getD, h_bound, Vector.get]

theorem getD_ofFn {n : Nat} (f : Fin n → Nat) {i : Nat} (h_bound : i < n) :
    (List.ofFn f).getD i 0 = f ⟨i, h_bound⟩ := by
  simp [List.getD_eq_getElem?_getD, h_bound]

theorem toNat_rotate (w n : UInt64) : (Keccak.rotate w n).toNat = rotate w.toNat n.toNat := by
  have h_zero : n = 0 ↔ n.toNat = 0 := UInt64.toNat_inj.symm
  unfold Keccak.rotate rotate
  by_cases h_n : n = 0
  · rw [if_pos h_n, if_pos (h_zero.mp h_n)]
  · rw [if_neg h_n, if_neg (mt h_zero.mpr h_n), UInt64.toNat_or, UInt64.toNat_shiftLeft,
      UInt64.toNat_shiftRight, UInt64.toNat_sub]
    rfl

theorem get_ofFn {n : Nat} (f : Fin n → UInt64) (i : Fin n) : (Vector.ofFn f).get i = f i := by
  simp only [Vector.get, Vector.getElem_toArray, Vector.getElem_ofFn, Fin.val_cast]

theorem getElem_eq_lane (s : State) (i : Fin 25) (h_bound : i.val < 25) :
    getElem s i h_bound = Keccak.lane s i := by
  simp [Keccak.lane, Vector.get, Nat.mod_eq_of_lt h_bound]

/-! ### The same hash -/

theorem theta_numbers (a : State) (next : List Nat → List Nat) :
    theta (numbers a) next = next (numbers (Keccak.theta a)) := by
  simp only [theta, forcedAll_eq]
  refine congrArg next ?_
  simp only [Keccak.theta, numbers_ofFn, getElem_eq_lane]
  refine congrArg List.ofFn (funext fun i => ?_)
  have h_column (x : Nat) : x % 5 < 5 := Nat.mod_lt _ (by decide)
  rw [getD_ofFn _ (h_column _), getD_ofFn _ (h_column _), getD_ofFn _ (h_column _), get_ofFn]
  simp only [get_ofFn, UInt64.toNat_xor, toNat_rotate, lane_numbers]
  rfl

theorem rhoPi_numbers (a : State) (next : List Nat → List Nat) :
    rhoPi (numbers a) next = next (numbers (Keccak.rhoPi a)) := by
  have h_turns : turns = numbers offsets := rfl
  simp only [rhoPi, forcedAll_eq, Keccak.rhoPi, numbers_ofFn, toNat_rotate, h_turns, lane_numbers]

theorem chi_numbers (b : State) (next : List Nat → List Nat) :
    chi (numbers b) next = next (numbers (Keccak.chi b)) := by
  simp only [chi, forcedAll_eq, Keccak.chi, numbers_ofFn, getElem_eq_lane, UInt64.toNat_xor,
    UInt64.toNat_and, UInt64.toNat_not, lane_numbers]

theorem rounds_numbers (constants : List UInt64) (a : State) :
    rounds constants (numbers a) = numbers (constants.foldl round a) := by
  induction constants generalizing a with
  | nil => rfl
  | cons constant constants ih =>
    have h_round : (numbers (Keccak.chi (Keccak.rhoPi (Keccak.theta a)))).set 0
        ((Keccak.chi (Keccak.rhoPi (Keccak.theta a)))[0] ^^^ constant).toNat =
          numbers (round a constant) := by
      rw [round, numbers, numbers, Vector.toList_set, List.map_set]
    rw [rounds, theta_numbers, rhoPi_numbers, chi_numbers, forced_eq, lane_numbers,
      ← UInt64.toNat_xor, List.foldl_cons, ← ih, ← h_round]
    rfl

theorem absorb_numbers (s : State) (block : Octets) :
    absorb (numbers s) block = numbers (Keccak.absorb s block) := by
  rw [Keccak.absorb, permute, ← rounds_numbers]
  simp only [absorb, forcedAll_eq, numbers_ofFn, getElem_eq_lane, lane_numbers]
  refine congrArg (rounds _) (congrArg List.ofFn (funext fun i => ?_))
  split <;> simp only [UInt64.toNat_xor]

theorem absorbBlocks_numbers (n : Nat) (s : State) (bytes : Octets) :
    absorbBlocks n (numbers s) bytes = numbers (Keccak.absorbBlocks n s bytes) := by
  induction n generalizing s bytes with
  | zero => rfl
  | succ n ih => rw [absorbBlocks, absorb_numbers, ih, Keccak.absorbBlocks]

end Numbers

/-- **A hash is evaluated** with numbers. -/
theorem keccak256_eq (message : Octets) : keccak256 message = Numbers.hash message := by
  have h_state : List.replicate 25 0 = Numbers.numbers (Vector.replicate 25 0) := rfl
  simp only [keccak256, Numbers.hash, h_state, Numbers.absorbBlocks_numbers, Numbers.lane_numbers,
    UInt64.ofNat_toNat]
  rfl

end RosettaGateway.Keccak
