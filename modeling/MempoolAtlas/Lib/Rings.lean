import Mathlib.Data.List.Rotate
import Mathlib.Tactic

/-!
# Rings

A ring is a list without duplicates that is turned one place at a time: whose turn it
is, how long a turn takes to come back, and that everybody else has one in between.

## Results

* `turn_returns` — a turn comes back after a whole round at the earliest.
* `exists_turn_between` — between two turns of one, everybody else has a turn.
-/

namespace MempoolAtlas.Rings

variable {α : Type} {ring : List α}

/-- Whose turn it is. -/
theorem head?_rotate (hRing : ring ≠ []) (turn : Nat) :
    (ring.rotate turn).head? = ring[turn % ring.length]? := by
  have hLength : 0 < ring.length := List.length_pos_iff.mpr hRing
  have hGet : (ring.rotate turn)[0]? = ring[(0 + turn) % ring.length]? :=
    List.getElem?_rotate hLength
  rw [Nat.zero_add] at hGet
  rw [List.head?_eq_getElem?, hGet]

/-- A turn comes back after a whole round at the earliest. -/
theorem turn_returns (hNodup : ring.Nodup) {turn later : Nat} {item : α} (hLater : turn < later)
    (hTurn : (ring.rotate turn).head? = some item)
    (hAgain : (ring.rotate later).head? = some item) : turn + ring.length ≤ later := by
  have hRing : ring ≠ [] := by
    rintro rfl
    simp at hTurn
  have hPos : 0 < ring.length := List.length_pos_iff.mpr hRing
  rw [head?_rotate hRing] at hTurn hAgain
  have hSame : turn % ring.length = later % ring.length :=
    (List.getElem?_inj (Nat.mod_lt _ hPos) hNodup).mp (hTurn.trans hAgain.symm)
  have hDivides : ring.length ∣ later - turn :=
    (Nat.modEq_iff_dvd' (Nat.le_of_lt hLater)).mp hSame
  have hLe := Nat.le_of_dvd (Nat.sub_pos_of_lt hLater) hDivides
  omega

/-- Within a round from any turn, everybody has one. -/
theorem exists_turn {item : α} (hMem : item ∈ ring) (turn : Nat) :
    ∃ later, turn ≤ later ∧ later < turn + ring.length ∧
      (ring.rotate later).head? = some item := by
  obtain ⟨place, hPlace, hGet⟩ := List.mem_iff_getElem.mp hMem
  have hRing : ring ≠ [] := List.ne_nil_of_mem hMem
  have hPos : 0 < ring.length := List.length_pos_iff.mpr hRing
  have hMod : turn % ring.length < ring.length := Nat.mod_lt _ hPos
  have hWait : ∀ wait, (turn + wait) % ring.length = place →
      (ring.rotate (turn + wait)).head? = some item := by
    intro wait hWait
    rw [head?_rotate hRing, hWait, List.getElem?_eq_getElem hPlace, hGet]
  rcases Nat.lt_or_ge place (turn % ring.length) with hBefore | hAfter
  · refine ⟨turn + (place + ring.length - turn % ring.length), by omega, by omega, hWait _ ?_⟩
    have hSum : turn + (place + ring.length - turn % ring.length) =
        place + ring.length * (turn / ring.length + 1) := by
      have hDiv := Nat.mod_add_div turn ring.length
      rw [Nat.mul_add, Nat.mul_one]
      omega
    rw [hSum, Nat.add_mul_mod_self_left, Nat.mod_eq_of_lt hPlace]
  · refine ⟨turn + (place - turn % ring.length), by omega, by omega, hWait _ ?_⟩
    have hSum : turn + (place - turn % ring.length) =
        place + ring.length * (turn / ring.length) := by
      have hDiv := Nat.mod_add_div turn ring.length
      omega
    rw [hSum, Nat.add_mul_mod_self_left, Nat.mod_eq_of_lt hPlace]

/-- **Between two turns of one, everybody else has a turn.** -/
theorem exists_turn_between (hNodup : ring.Nodup) {turn later : Nat} {item other : α}
    (hLater : turn < later) (hTurn : (ring.rotate turn).head? = some item)
    (hAgain : (ring.rotate later).head? = some item) (hMem : other ∈ ring) (hNe : other ≠ item) :
    ∃ middle, turn < middle ∧ middle < later ∧ (ring.rotate middle).head? = some other := by
  have hRound := turn_returns hNodup hLater hTurn hAgain
  obtain ⟨middle, hFrom, hBefore, hHead⟩ := exists_turn hMem turn
  refine ⟨middle, lt_of_le_of_ne hFrom ?_, by omega, hHead⟩
  rintro rfl
  exact hNe (Option.some.inj (hHead.symm.trans hTurn))

end MempoolAtlas.Rings
