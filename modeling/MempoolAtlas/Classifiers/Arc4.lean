import MempoolAtlas.Lib.Streams

/-!
# ARC4

`src/classifiers/arc4.rs`: the keystream Counterparty and Stamps payloads are
obfuscated with.

## Results

* `apply_apply`, `apply_prefix` — the cipher undoes itself and works from the front.
* `apply_eq_packed` — it may be run with its permutation packed in one number.
-/

namespace MempoolAtlas.Classifiers.Arc4

/-- The permutation with the two running indexes. -/
structure Cipher where
  i : UInt8
  j : UInt8
  state : Vector UInt8 256

/-- A cell of the state. -/
def Cipher.cell (cipher : Cipher) (index : UInt8) : UInt8 :=
  cipher.state.get index.toFin

/-- Two cells exchanged. -/
def swapCells (state : Vector UInt8 256) (a b : UInt8) : Vector UInt8 256 :=
  state.swap a.toNat b.toNat a.toNat_lt b.toNat_lt

/-- One round of the key schedule. -/
def scheduleRound (key : List UInt8) (acc : Vector UInt8 256 × UInt8) (index : Nat) :
    Vector UInt8 256 × UInt8 :=
  let cell := acc.1.get (UInt8.ofNat index).toFin
  let swapIndex := acc.2 + cell + key.getD (index % key.length) 0
  (swapCells acc.1 (UInt8.ofNat index) swapIndex, swapIndex)

/-- The key schedule. -/
def schedule (key : List UInt8) : Cipher :=
  let start := (Vector.ofFn fun index : Fin 256 => UInt8.ofNat index.val, (0 : UInt8))
  { i := 0, j := 0, state := ((List.range 256).foldl (scheduleRound key) start).1 }

/-- The next keystream byte. -/
def Cipher.next (cipher : Cipher) : UInt8 × Cipher :=
  let i := cipher.i + 1
  let j := cipher.j + cipher.cell i
  let cipher : Cipher := { i := i, j := j, state := swapCells cipher.state i j }
  (cipher.cell (cipher.cell i + cipher.cell j), cipher)

/-- The data under the keystream. -/
def applyCipher : Cipher → List UInt8 → List UInt8
  | _, [] => []
  | cipher, byte :: data =>
    let (keystream, cipher) := cipher.next
    (byte ^^^ keystream) :: applyCipher cipher data

/-- `arc4`: the data under the keystream of a key. -/
def apply (key data : List UInt8) : List UInt8 :=
  if key.isEmpty then data else applyCipher (schedule key) data

/-- The cipher is a keyed stream. -/
theorem applyCipher_eq (cipher : Cipher) (data : List UInt8) :
    applyCipher cipher data = Streams.keyed Cipher.next (· ^^^ ·) cipher data := by
  induction data generalizing cipher with
  | nil => rfl
  | cons byte data ih => rw [Streams.keyed, ← ih, applyCipher]

/-- The cipher keeps the length. -/
@[simp] theorem length_apply (key data : List UInt8) : (apply key data).length = data.length := by
  unfold apply
  split
  · rfl
  · rw [applyCipher_eq, Streams.length_keyed]

/-- Applying the cipher twice gives the data back. -/
theorem apply_apply (key data : List UInt8) : apply key (apply key data) = data := by
  unfold apply
  split
  · rfl
  · rw [applyCipher_eq, applyCipher_eq, Streams.keyed_keyed]
    intro byte keystream
    rw [UInt8.xor_assoc, UInt8.xor_self, UInt8.xor_zero]

/-- The cipher works from the front. -/
theorem apply_prefix (key : List UInt8) {data data' : List UInt8} (h : data <+: data') :
    apply key data <+: apply key data' := by
  unfold apply
  split
  · exact h
  · rw [applyCipher_eq, applyCipher_eq]
    exact Streams.keyed_prefix _ _ h _

-- ---------------------------------------------------------------------------
-- Evaluation
-- ---------------------------------------------------------------------------

/-- Cell `index` of a permutation packed into one number, eight bits a cell. -/
def packedCell (packed index : Nat) : Nat := (packed >>> (8 * index)) % 2 ^ 8

/-- Two cells of a packed state exchanged. -/
def packedSwap (packed a b : Nat) : Nat :=
  let difference := packedCell packed a ^^^ packedCell packed b
  packed ^^^ (difference <<< (8 * a)) ^^^ (difference <<< (8 * b))

theorem packedCell_xor (x y index : Nat) :
    packedCell (x ^^^ y) index = packedCell x index ^^^ packedCell y index := by
  rw [packedCell, Nat.shiftRight_xor_distrib, Nat.xor_mod_two_pow]
  rfl

theorem packedCell_lt (packed index : Nat) : packedCell packed index < 2 ^ 8 :=
  Nat.mod_lt _ (by decide)

/-- A byte moved to one cell shows in that cell only. -/
theorem packedCell_shiftLeft {byte : Nat} (hByte : byte < 2 ^ 8) (cell index : Nat) :
    packedCell (byte <<< (8 * cell)) index = if index = cell then byte else 0 := by
  rw [packedCell]
  split
  · next hSame =>
    rw [hSame, Nat.shiftLeft_shiftRight, Nat.mod_eq_of_lt hByte]
  · next hOther =>
    rcases Nat.lt_or_gt_of_ne hOther with hLt | hGt
    · obtain ⟨gap, rfl⟩ := Nat.exists_eq_add_of_lt hLt
      have hSplit : 8 * (index + gap + 1) = 8 * index + (8 * gap + 8) := by omega
      rw [hSplit, Nat.shiftLeft_eq, Nat.shiftRight_eq_div_pow, pow_add, mul_comm (2 ^ (8 * index)),
        ← mul_assoc, Nat.mul_div_cancel _ (by positivity), pow_add, ← mul_assoc]
      exact Nat.mul_mod_left _ _
    · obtain ⟨gap, rfl⟩ := Nat.exists_eq_add_of_lt hGt
      have hSplit : 8 * (cell + gap + 1) = 8 * cell + (8 * gap + 8) := by omega
      have hSmall : byte < 2 ^ (8 * gap + 8) :=
        hByte.trans_le (Nat.pow_le_pow_right (by decide) (by omega))
      rw [hSplit, Nat.shiftRight_add, Nat.shiftLeft_shiftRight, Nat.shiftRight_eq_div_pow,
        Nat.div_eq_of_lt hSmall, Nat.zero_mod]

/-- The cells after an exchange. -/
theorem packedCell_packedSwap (packed a b index : Nat) :
    packedCell (packedSwap packed a b) index =
      if index = a then packedCell packed b
      else if index = b then packedCell packed a
      else packedCell packed index := by
  have hByte : packedCell packed a ^^^ packedCell packed b < 2 ^ 8 :=
    Nat.xor_lt_two_pow (packedCell_lt _ _) (packedCell_lt _ _)
  rw [packedSwap, packedCell_xor, packedCell_xor, packedCell_shiftLeft hByte,
    packedCell_shiftLeft hByte]
  split_ifs with hA hB hB
  · rw [← hA, ← hB, Nat.xor_self, Nat.xor_zero, Nat.xor_zero]
  · rw [hA, Nat.xor_zero, ← Nat.xor_assoc, Nat.xor_self, Nat.zero_xor]
  · rw [hB, Nat.xor_zero, Nat.xor_comm (packedCell packed a), ← Nat.xor_assoc, Nat.xor_self,
      Nat.zero_xor]
  · rw [Nat.xor_zero, Nat.xor_zero]

/-- A number packs the cells of a permutation. -/
def Packs (packed : Nat) (state : Vector UInt8 256) : Prop :=
  ∀ index : UInt8, packedCell packed index.toNat = (state.get index.toFin).toNat

theorem get_toFin (cells : Vector UInt8 256) (index : UInt8) (h : index.toNat < 256) :
    cells.get index.toFin = cells[index.toNat] := rfl

/-- An exchange keeps the packing. -/
theorem Packs.swap {packed : Nat} {state : Vector UInt8 256} (h : Packs packed state) (a b : UInt8) :
    Packs (packedSwap packed a.toNat b.toNat) (swapCells state a b) := by
  intro index
  simp only [Packs, get_toFin _ _ (UInt8.toNat_lt _)] at h
  rw [packedCell_packedSwap, get_toFin _ _ index.toNat_lt, swapCells, Vector.getElem_swap, h, h, h]
  split_ifs <;> rfl

/-- One round of the schedule on a packed state. -/
def packedRound (key : List UInt8) (acc : Nat × Nat) (index : Nat) : Nat × Nat :=
  let cell := packedCell acc.1 index
  let swapIndex := (acc.2 + cell + (key.getD (index % key.length) 0).toNat) % 2 ^ 8
  (packedSwap acc.1 index swapIndex, swapIndex)

/-- The packed state before the schedule. -/
def packedStart : Nat := (List.range 256).foldr (fun index packed => packed * 2 ^ 8 + index) 0

/-- The schedule on a packed state. -/
def packedSchedule (key : List UInt8) : Nat :=
  ((List.range 256).foldl (packedRound key) (packedStart, 0)).1

theorem packs_start : Packs packedStart (Vector.ofFn fun index => UInt8.ofNat index.val) := by
  have hCells : ∀ index < 256, packedCell packedStart index = index := by decide +kernel
  intro index
  rw [hCells _ index.toNat_lt]
  rw [get_toFin _ _ index.toNat_lt, Vector.getElem_ofFn, UInt8.ofNat_toNat]

/-- The packed schedule is the schedule. -/
theorem packs_schedule (key : List UInt8) : Packs (packedSchedule key) (schedule key).state := by
  have hRounds : ∀ (rounds : List Nat), (∀ index ∈ rounds, index < 256) →
      ∀ (packed : Nat × Nat) (acc : Vector UInt8 256 × UInt8),
        Packs packed.1 acc.1 → packed.2 = acc.2.toNat →
        Packs (rounds.foldl (packedRound key) packed).1
          (rounds.foldl (scheduleRound key) acc).1 := by
    intro rounds
    induction rounds with
    | nil => exact fun _ _ _ hPacks _ => hPacks
    | cons index rounds ih =>
      intro hBound packed acc hPacks hSwap
      have hIndex : index = (UInt8.ofNat index).toNat :=
        (UInt8.toNat_ofNat_of_lt' (hBound index List.mem_cons_self)).symm
      have hNext : (packedRound key packed index).2 = (scheduleRound key acc index).2.toNat := by
        simp only [packedRound, scheduleRound]
        rw [hSwap, UInt8.toNat_add, UInt8.toNat_add, ← hPacks, ← hIndex, Nat.mod_add_mod]
      refine ih (fun later hMem => hBound later (List.mem_cons_of_mem _ hMem)) _ _ ?_ hNext
      have hCells := hPacks.swap (UInt8.ofNat index) (scheduleRound key acc index).2
      rw [← hIndex, ← hNext] at hCells
      exact hCells
  exact hRounds _ (fun index hMem => List.mem_range.mp hMem) _ _ packs_start rfl

/-- The keystream of a packed permutation with its two running indexes. -/
def packedKeystream : Nat → Nat → Nat → Nat → List UInt8
  | _, _, _, 0 => []
  | i, j, packed, count + 1 =>
    let i := (i + 1) % 2 ^ 8
    let j := (j + packedCell packed i) % 2 ^ 8
    let packed := packedSwap packed i j
    let sum := (packedCell packed i + packedCell packed j) % 2 ^ 8
    UInt8.ofNat (packedCell packed sum) :: packedKeystream i j packed count

/-- The packed keystream is the keystream. -/
theorem keystream_eq_packedKeystream {packed : Nat} {cipher : Cipher}
    (h : Packs packed cipher.state) (count : Nat) :
    Streams.keystream Cipher.next cipher count =
      packedKeystream cipher.i.toNat cipher.j.toNat packed count := by
  induction count generalizing packed cipher with
  | zero => rfl
  | succ count ih =>
    have hI : (cipher.i.toNat + 1) % 2 ^ 8 = (cipher.i + 1).toNat :=
      (UInt8.toNat_add cipher.i 1).symm
    have hJ : (cipher.j.toNat + packedCell packed (cipher.i + 1).toNat) % 2 ^ 8 =
        (cipher.j + cipher.cell (cipher.i + 1)).toNat := by
      rw [h, ← UInt8.toNat_add]
      rfl
    have hSwap := h.swap (cipher.i + 1) (cipher.j + cipher.cell (cipher.i + 1))
    simp only [Streams.keystream, packedKeystream, hI, hJ]
    rw [@ih _ cipher.next.2 hSwap, hSwap, hSwap, ← UInt8.toNat_add, hSwap, UInt8.ofNat_toNat]
    rfl

/-- ARC4 with its permutation packed. -/
theorem apply_eq_packed {key : List UInt8} (hKey : key ≠ []) (data : List UInt8) :
    apply key data =
      List.zipWith (· ^^^ ·) data (packedKeystream 0 0 (packedSchedule key) data.length) := by
  rw [apply, if_neg (by rwa [List.isEmpty_iff]), applyCipher_eq,
    Streams.keyed_eq_zipWith _ _ _ (Nat.le_refl _), keystream_eq_packedKeystream (packs_schedule key)]
  rfl

/-- A published vector: the key `Key`, the data `Plaintext`. -/
example : apply [0x4b, 0x65, 0x79] [0x50, 0x6c, 0x61, 0x69, 0x6e, 0x74, 0x65, 0x78, 0x74] =
    [0xbb, 0xf3, 0x16, 0xe8, 0xd9, 0x40, 0xaf, 0x0a, 0xd3] := by
  rw [apply_eq_packed (by decide)]
  decide +kernel

end MempoolAtlas.Classifiers.Arc4
