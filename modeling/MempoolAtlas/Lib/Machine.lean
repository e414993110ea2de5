import Mathlib.Tactic

/-!
# Machine integers

Rust's `u64` and (on the 64-bit targets served here) `usize` arithmetic over
`Nat`. Plain additions stay `Nat` additions; only the operations whose
behaviour at the top of the range the program asks for by name are defined
here: `wrapping_add`, `saturating_add`, `saturating_mul`, `checked_add`,
`checked_mul`, `checked_sub`. `saturating_sub` is `Nat` subtraction.

## Results

* `checkedAdd_eq_some`, `checkedMul_eq_some`, `checkedSub_eq_some` — when a checked operation has
  a result.
* `foldl_saturatingAdd` — a saturating total is the sum, or the top of the range.
-/

namespace MempoolAtlas.Machine

/-- `u64::MAX`, also `usize::MAX`. -/
def u64Max : Nat := 2 ^ 64 - 1

def wrappingAdd (a b : Nat) : Nat := (a + b) % 2 ^ 64

def saturatingAdd (a b : Nat) : Nat := min (a + b) u64Max

def saturatingMul (a b : Nat) : Nat := min (a * b) u64Max

def checkedAdd (a b : Nat) : Option Nat := if a + b ≤ u64Max then some (a + b) else none

def checkedMul (a b : Nat) : Option Nat := if a * b ≤ u64Max then some (a * b) else none

def checkedSub (a b : Nat) : Option Nat := if b ≤ a then some (a - b) else none

/-- `u64::try_from(n).unwrap_or(u64::MAX)`. -/
def toU64 (n : Nat) : Nat := min n u64Max

theorem checkedAdd_eq_some {a b c : Nat} :
    checkedAdd a b = some c ↔ a + b ≤ u64Max ∧ c = a + b := by
  unfold checkedAdd
  split <;> simp_all [eq_comm]

theorem checkedMul_eq_some {a b c : Nat} :
    checkedMul a b = some c ↔ a * b ≤ u64Max ∧ c = a * b := by
  unfold checkedMul
  split <;> simp_all [eq_comm]

theorem checkedSub_eq_some {a b c : Nat} :
    checkedSub a b = some c ↔ b ≤ a ∧ c = a - b := by
  unfold checkedSub
  split <;> simp_all [eq_comm]

theorem wrappingAdd_one_of_le {n : Nat} (h : n ≤ wrappingAdd n 1) :
    wrappingAdd n 1 = n + 1 := by
  unfold wrappingAdd at h ⊢
  omega

theorem saturatingAdd_of_le {a b : Nat} (h : a + b ≤ u64Max) : saturatingAdd a b = a + b :=
  Nat.min_eq_left h

/-- A saturating total is the sum, or the top of the range. -/
theorem foldl_saturatingAdd {α : Type} (weight : α → Nat) (items : List α) {total : Nat}
    (hTotal : total ≤ u64Max) :
    items.foldl (fun total item => saturatingAdd total (weight item)) total =
      min (total + (items.map weight).sum) u64Max := by
  induction items generalizing total with
  | nil => simp [hTotal]
  | cons item rest ih =>
    have hNext : saturatingAdd total (weight item) ≤ u64Max := Nat.min_le_right ..
    rw [List.foldl_cons, ih hNext, List.map_cons, List.sum_cons]
    unfold saturatingAdd
    omega

@[simp] theorem toU64_eq_zero {n : Nat} : toU64 n = 0 ↔ n = 0 := by
  simp [toU64, u64Max]

end MempoolAtlas.Machine
