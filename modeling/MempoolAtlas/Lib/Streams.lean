import Mathlib.Tactic

/-!
# Streams

Marker search and keystreams over lists: a scanner that keeps a window of the last
values only, and a cipher that mixes each value with the next of a keystream.

## Results

* `foldl_push` — a scanner knows the last values and whether the marker has come.
* `keyed_keyed`, `keyed_prefix` — a keystream cipher undoes itself and works from the front.
-/

namespace MempoolAtlas.Streams

-- ---------------------------------------------------------------------------
-- Window scanners
-- ---------------------------------------------------------------------------

/-- What a window of `count` values keeps of a stream. -/
def lastValues {α : Type} (count : Nat) (stream : List α) : List α :=
  stream.drop (stream.length - count)

theorem length_lastValues {α : Type} (count : Nat) (stream : List α) :
    (lastValues count stream).length = min count stream.length := by
  rw [lastValues, List.length_drop]
  omega

/-- Add a value to a window of at most `count` values. -/
def slide {α : Type} (count : Nat) (window : List α) (value : α) : List α :=
  (if window.length = count then window.tail else window) ++ [value]

theorem slide_lastValues {α : Type} {count : Nat} (hPos : 0 < count) (stream : List α)
    (value : α) :
    slide count (lastValues count stream) value = lastValues count (stream ++ [value]) := by
  rw [slide, length_lastValues]
  split
  · next hFull =>
    rw [lastValues, List.tail_drop, ← List.drop_append_of_le_length (by omega), lastValues,
      List.length_append, List.length_singleton]
    congr 1
    omega
  · next hShort =>
    have hBefore : stream.length - count = 0 := by omega
    have hAfter : (stream ++ [value]).length - count = 0 := by
      rw [List.length_append, List.length_singleton]
      omega
    rw [lastValues, lastValues, hBefore, hAfter, List.drop_zero, List.drop_zero]

structure Scanner (α : Type) where
  window : List α
  found : Bool

namespace Scanner

variable {α : Type} [DecidableEq α] {marker : List α}

def empty : Scanner α := { window := [], found := false }

/-- Push one value into a window as long as the marker. -/
def push (marker : List α) (scanner : Scanner α) (value : α) : Scanner α :=
  let window := slide marker.length scanner.window value
  { window, found := scanner.found || decide (window = marker) }

/-- A scanner that has read a stream holds its last values and whether the marker is in
it. -/
theorem foldl_push (hMarker : marker ≠ []) (stream : List α) :
    stream.foldl (push marker) empty =
      { window := lastValues marker.length stream, found := decide (marker <:+: stream) } := by
  induction stream using List.reverseRecOn with
  | nil =>
    have hNone : ¬ marker <:+: [] := fun h => hMarker (List.infix_nil.mp h)
    simp [empty, lastValues, hNone]
  | append_singleton stream value ih =>
    have hFound : (decide (marker <:+: stream) ||
        decide (lastValues marker.length (stream ++ [value]) = marker)) =
        decide (marker <:+: stream ++ [value]) := by
      rw [Bool.eq_iff_iff, Bool.or_eq_true, decide_eq_true_eq, decide_eq_true_eq,
        decide_eq_true_eq, List.infix_concat_iff, List.suffix_iff_eq_drop, or_comm]
      exact or_congr_left eq_comm
    rw [List.foldl_append, ih, List.foldl_cons, List.foldl_nil, push]
    simp only [slide_lastValues (List.length_pos_of_ne_nil hMarker), hFound]

end Scanner

-- ---------------------------------------------------------------------------
-- Keystreams
-- ---------------------------------------------------------------------------

section Keystreams

variable {α κ σ : Type} (next : σ → κ × σ) (mix : α → κ → α)

/-- Mix each value with the next of the keystream. -/
def keyed : σ → List α → List α
  | _, [] => []
  | state, value :: data => mix value (next state).1 :: keyed (next state).2 data

/-- A mix that undoes itself makes a cipher that does. -/
theorem keyed_keyed (hMix : ∀ value key, mix (mix value key) key = value) (state : σ)
    (data : List α) : keyed next mix state (keyed next mix state data) = data := by
  induction data generalizing state with
  | nil => rfl
  | cons value data ih => rw [keyed, keyed, hMix, ih]

theorem take_keyed (state : σ) (data : List α) (count : Nat) :
    (keyed next mix state data).take count = keyed next mix state (data.take count) := by
  induction data generalizing state count with
  | nil => rw [keyed, List.take_nil, keyed]
  | cons value data ih =>
    cases count with
    | zero => rfl
    | succ count => rw [keyed, List.take_succ_cons, List.take_succ_cons, keyed, ih]

theorem length_keyed (state : σ) (data : List α) :
    (keyed next mix state data).length = data.length := by
  induction data generalizing state with
  | nil => rfl
  | cons value data ih => rw [keyed, List.length_cons, List.length_cons, ih]

/-- What a cipher makes of a prefix is a prefix of what it makes of the whole. -/
theorem keyed_prefix {data data' : List α} (h : data <+: data') (state : σ) :
    keyed next mix state data <+: keyed next mix state data' := by
  rw [List.prefix_iff_eq_take, length_keyed, take_keyed, ← List.prefix_iff_eq_take.mp h]

/-- The first values of the keystream. -/
def keystream : σ → Nat → List κ
  | _, 0 => []
  | state, count + 1 => (next state).1 :: keystream (next state).2 count

theorem keyed_eq_zipWith (state : σ) {data : List α} {count : Nat} (hCount : data.length ≤ count) :
    keyed next mix state data = List.zipWith mix data (keystream next state count) := by
  induction data generalizing state count with
  | nil => rw [keyed, List.zipWith_nil_left]
  | cons value data ih =>
    obtain ⟨count, rfl⟩ := Nat.exists_eq_add_one_of_ne_zero (Nat.ne_of_gt (Nat.zero_lt_of_lt hCount))
    rw [keyed, keystream, List.zipWith_cons_cons, ih _ (Nat.le_of_succ_le_succ hCount)]
end Keystreams

end MempoolAtlas.Streams
