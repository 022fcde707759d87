import Mathlib

namespace Kardia

abbrev Hash := BitVec 256

/-- Modelled from the spec: a `*cmn.BigInt` is a pointer to an unbounded integer.
`ref` is the address, `val` the integer; `Equals` and the ordering methods read `val`,
Go's `==` on the pointers reads `ref`. -/
structure BigInt where
  ref : Nat
  val : Int
deriving DecidableEq, Repr

namespace BigInt

def equals (a b : BigInt) : Bool := a.val == b.val

/-- Go's `==` on two `*cmn.BigInt`. -/
def ptrEq (a b : BigInt) : Bool := a.ref == b.ref

def isGreaterThanInt (a : BigInt) (n : Int) : Bool := n < a.val

def isGreaterThanOrEqualThanInt (a : BigInt) (n : Int) : Bool := n ≤ a.val

def isLessThan (a b : BigInt) : Bool := a.val < b.val

/-- The method `Int32()`: the value truncated to 32-bit two's complement. -/
def int32 (a : BigInt) : Int := a.val.bmod (2 ^ 32)

@[simp] theorem equals_iff (a b : BigInt) : a.equals b = true ↔ a.val = b.val := by
  simp [equals]

@[simp] theorem ptrEq_iff (a b : BigInt) : a.ptrEq b = true ↔ a.ref = b.ref := by
  simp [ptrEq]

end BigInt

/-- Modelled from the spec: a fixed-size bit array over the validator set. -/
abbrev BitArray := List Bool

/-- The method `SetIndex(i, v)`: indices outside the array change nothing. -/
def BitArray.setIndex (b : BitArray) (i : Int) (v : Bool) : BitArray :=
  if 0 ≤ i ∧ i < b.length then b.set i.toNat v else b

/-- Modelled from the spec: the two vote types. -/
def voteTypePrevote : UInt8 := 1

def voteTypePrecommit : UInt8 := 2

def isVoteTypeValid (t : UInt8) : Bool := t == voteTypePrevote || t == voteTypePrecommit

abbrev RoundStepType := UInt8

abbrev HRS := Int ×ₗ Int ×ₗ Nat

def hrs (h r : BigInt) (s : RoundStepType) : HRS := toLex (h.val, toLex (r.val, s.toNat))

/-- Modelled from the spec: `CompareHRS`, the lexicographic comparator on
(height, round, step). -/
def compareHRS (h1 r1 : BigInt) (s1 : RoundStepType) (h2 r2 : BigInt) (s2 : RoundStepType) :
    Int :=
  if h1.val < h2.val then -1 else if h1.val > h2.val then 1
  else if r1.val < r2.val then -1 else if r1.val > r2.val then 1
  else if s1 < s2 then -1 else if s1 > s2 then 1
  else 0

theorem hrs_le_iff (h1 r1 h2 r2 : BigInt) (s1 s2 : RoundStepType) :
    hrs h1 r1 s1 ≤ hrs h2 r2 s2 ↔
      h1.val < h2.val ∨ h1.val = h2.val ∧ (r1.val < r2.val ∨ r1.val = r2.val ∧ s1.toNat ≤ s2.toNat) :=
  by simp only [hrs, Prod.Lex.le_iff]

theorem compareHRS_nonpos_iff (h1 r1 h2 r2 : BigInt) (s1 s2 : RoundStepType) :
    compareHRS h1 r1 s1 h2 r2 s2 ≤ 0 ↔ hrs h1 r1 s1 ≤ hrs h2 r2 s2 := by
  have hs1 : s1 < s2 ↔ s1.toNat < s2.toNat := Iff.rfl
  have hs2 : s1 > s2 ↔ s2.toNat < s1.toNat := Iff.rfl
  simp only [compareHRS, hrs_le_iff, hs1, hs2]
  split_ifs <;> omega

end Kardia
