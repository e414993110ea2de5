import Mathlib.Tactic

/-!
# Fallible checks

Inversion of the `Except` computations validators are written in: a sequence of
checks passes exactly when each of them does.

## Results

* `bind_eq_ok`, `mapM_eq_ok_iff` — when a sequence succeeds, and with what.
* `checkAll_eq_ok` — when all checks pass.
-/

namespace MempoolAtlas.Checks

universe u v

variable {ε : Type u} {α β : Type v}

/-- When a sequence succeeds. -/
theorem bind_eq_ok {x : Except ε α} {f : α → Except ε β} {b : β} :
    (x >>= f) = .ok b ↔ ∃ a, x = .ok a ∧ f a = .ok b := by
  cases x with
  | error e => simp [Bind.bind, Except.bind]
  | ok a => simp [Bind.bind, Except.bind]

/-- When a mapped result succeeds. -/
theorem map_eq_ok {x : Except ε α} {f : α → β} {b : β} :
    x.map f = .ok b ↔ ∃ a, x = .ok a ∧ f a = b := by
  cases x with
  | error e => simp [Except.map]
  | ok a => simp [Except.map]

/-- When a list of computations succeeds. -/
theorem mapM_eq_ok {f : α → Except ε β} {l : List α} {r : List β} :
    l.mapM f = .ok r ↔ List.Forall₂ (fun a b => f a = .ok b) l r := by
  induction l generalizing r with
  | nil =>
    rw [List.mapM_nil, List.forall₂_nil_left_iff]
    exact ⟨fun h => (Except.ok.inj h).symm, fun h => by rw [h]; rfl⟩
  | cons a rest ih =>
    rw [List.mapM_cons, bind_eq_ok, List.forall₂_cons_left_iff]
    constructor
    · rintro ⟨b, hb, h⟩
      obtain ⟨bs, hbs, h⟩ := bind_eq_ok.mp h
      exact ⟨b, bs, hb, ih.mp hbs, (Except.ok.inj h).symm⟩
    · rintro ⟨b, bs, hb, hbs, rfl⟩
      exact ⟨b, hb, bind_eq_ok.mpr ⟨bs, ih.mpr hbs, rfl⟩⟩

/-- A pass succeeds as a whole when it succeeds on each element. -/
theorem mapM_isOk {f : α → Except ε β} {l : List α} (h : ∀ a ∈ l, ∃ b, f a = .ok b) :
    ∃ r, l.mapM f = .ok r := by
  induction l with
  | nil => exact ⟨[], rfl⟩
  | cons a rest ih =>
    obtain ⟨b, hb⟩ := h a List.mem_cons_self
    obtain ⟨bs, hbs⟩ := ih fun x hx => h x (List.mem_cons_of_mem a hx)
    exact ⟨b :: bs, by rw [List.mapM_cons, hb, hbs]; rfl⟩

/-- A pass over elements that are each either refused or sent to a known value. -/
theorem mapM_eq_ok_iff {f : α → Except ε β} {good : α → Prop} {g : α → β} {l : List α}
    (h : ∀ a ∈ l, ∀ b, f a = .ok b ↔ good a ∧ b = g a) {r : List β} :
    l.mapM f = .ok r ↔ (∀ a ∈ l, good a) ∧ r = l.map g := by
  rw [mapM_eq_ok]
  induction l generalizing r with
  | nil => rw [List.forall₂_nil_left_iff]; simp
  | cons a rest ih =>
    have hRest := @ih fun x hx => h x (List.mem_cons_of_mem a hx)
    rw [List.forall₂_cons_left_iff, List.forall_mem_cons, List.map_cons]
    constructor
    · rintro ⟨b, bs, hb, hbs, rfl⟩
      obtain ⟨hGood, rfl⟩ := (h a List.mem_cons_self b).mp hb
      obtain ⟨hGoods, rfl⟩ := hRest.mp hbs
      exact ⟨⟨hGood, hGoods⟩, rfl⟩
    · rintro ⟨⟨hGood, hGoods⟩, rfl⟩
      exact ⟨g a, rest.map g, (h a List.mem_cons_self _).mpr ⟨hGood, rfl⟩,
        hRest.mpr ⟨hGoods, rfl⟩, rfl⟩

/-- The same for a pass that may find nothing. -/
theorem mapM_eq_some_iff {f : α → Option β} {good : α → Prop} {g : α → β} {l : List α}
    (h : ∀ a ∈ l, ∀ b, f a = some b ↔ good a ∧ b = g a) {r : List β} :
    l.mapM f = some r ↔ (∀ a ∈ l, good a) ∧ r = l.map g := by
  induction l generalizing r with
  | nil => simp [eq_comm]
  | cons a rest ih =>
    have hFirst := h a List.mem_cons_self
    have hRest := @ih fun x hx => h x (List.mem_cons_of_mem a hx)
    simp only [List.mapM_cons, Option.bind_eq_bind, Option.bind_eq_some_iff, hFirst, hRest,
      Option.pure_def, Option.some.injEq, List.forall_mem_cons, List.map_cons, and_assoc,
      exists_and_left, exists_eq_left]
    rw [eq_comm (a := r)]

/-- The value that is there, or the error that it is not. -/
def require {α : Type v} (value : Option α) (e : ε) : Except ε α :=
  match value with
  | some a => .ok a
  | none => .error e

/-- When a required value is there. -/
theorem require_eq_ok {α : Type v} {value : Option α} {e : ε} {a : α} :
    require value e = .ok a ↔ value = some a := by
  cases value <;> simp [require]

/-- `if bad { return Err(e) }`. -/
def ensure (bad : Bool) (e : ε) : Except ε PUnit.{v + 1} := if bad then .error e else .ok ⟨⟩

/-- When a check passes. -/
theorem ensure_eq_ok {bad : Bool} {e : ε} {u : PUnit.{v + 1}} :
    ensure bad e = .ok u ↔ bad = false := by
  cases bad <;> simp [ensure]

@[simp] theorem ensure_false {e : ε} : ensure false e = .ok (⟨⟩ : PUnit.{v + 1}) := rfl

/-- A loop that returns at the first failing element. -/
def checkAll (check : α → Except ε PUnit.{v + 1}) : List α → Except ε PUnit.{v + 1}
  | [] => .ok ⟨⟩
  | a :: rest => check a >>= fun _ => checkAll check rest

/-- When all checks pass. -/
theorem checkAll_eq_ok {check : α → Except ε PUnit.{v + 1}} {l : List α} {u : PUnit.{v + 1}} :
    checkAll check l = .ok u ↔ ∀ a ∈ l, check a = .ok ⟨⟩ := by
  induction l with
  | nil => simp [checkAll]
  | cons a rest ih =>
    rw [checkAll, bind_eq_ok, List.forall_mem_cons]
    constructor
    · rintro ⟨_, ha, hrest⟩
      exact ⟨ha, ih.mp hrest⟩
    · rintro ⟨ha, hrest⟩
      exact ⟨_, ha, ih.mpr hrest⟩

end MempoolAtlas.Checks
