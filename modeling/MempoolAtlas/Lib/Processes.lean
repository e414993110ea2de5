import Mathlib.Tactic
import Mathlib.Logic.Function.Basic

/-!
# Interleaved processes over one shared state

A `Processes` value describes any number of sequential processes that share
one state. A process owns a local state (its program counter and variables)
and advances by atomic actions; the actions of different processes interleave
in any order, and any number of processes may be in flight at once.

An `Outline` is a rely–guarantee proof over such a system: an invariant of the
shared state and an assertion for each process hold along every run when each
action keeps both for the process that takes it, and when what an action may do
to the shared state (its guarantee) cannot break the assertion of another
process. `Outline.holds_run` is the rule, `Outline.rel_run` its companion for
what a run does to the shared state.

## Results

* `Outline.holds_run` — an outline holds along every run.
* `Outline.rel_run` — what every action does to the shared state, a run does.
* `Run.crew_act`, `Run.alone_act` — runs of given processes, action by action.
-/

namespace MempoolAtlas

universe u v w x

/-- Sequential processes over one shared state. `starts` are the local states
a process may begin in; `step i s l e s' l'` is one atomic action of process
`i`, with the event `e` it makes visible, if any. -/
structure Processes (ι : Type u) (σ : Type v) (ℓ : Type w) (ε : Type x) where
  starts : ℓ → Prop
  step : ι → σ → ℓ → Option ε → σ → ℓ → Prop

structure World (ι : Type u) (σ : Type v) (ℓ : Type w) where
  shared : σ
  procs : ι → Option ℓ

namespace Processes

variable {ι : Type u} {σ : Type v} {ℓ : Type w} {ε : Type x} [DecidableEq ι]

/-- One step of the whole system: a new process begins, or one process takes
its next action. -/
inductive Step (P : Processes ι σ ℓ ε) : World ι σ ℓ → ι × Option ε → World ι σ ℓ → Prop
  | start {w : World ι σ ℓ} {i : ι} {l : ℓ} (hFree : w.procs i = none) (hStarts : P.starts l) :
      Step P w (i, none) { w with procs := Function.update w.procs i (some l) }
  | act {w : World ι σ ℓ} {i : ι} {l l' : ℓ} {e : Option ε} {s' : σ}
      (hLocal : w.procs i = some l) (hStep : P.step i w.shared l e s' l') :
      Step P w (i, e) ⟨s', Function.update w.procs i (some l')⟩

/-- A run, with the events of its steps in order. -/
inductive Run (P : Processes ι σ ℓ ε) (w : World ι σ ℓ) :
    List (ι × Option ε) → World ι σ ℓ → Prop
  | refl : Run P w [] w
  | tail {trace : List (ι × Option ε)} {mid last : World ι σ ℓ} {event : ι × Option ε}
      (hRun : Run P w trace mid) (hStep : Step P mid event last) :
      Run P w (trace ++ [event]) last

/-- A system with no process in flight. -/
def initial (s : σ) : World ι σ ℓ := ⟨s, fun _ => none⟩

variable {P : Processes ι σ ℓ ε}

theorem Run.single {w w' : World ι σ ℓ} {event : ι × Option ε} (h : P.Step w event w') :
    P.Run w [event] w' :=
  Run.tail Run.refl h

theorem Run.trans {w₁ w₂ w₃ : World ι σ ℓ} {t₁ t₂ : List (ι × Option ε)}
    (h₁ : P.Run w₁ t₁ w₂) (h₂ : P.Run w₂ t₂ w₃) : P.Run w₁ (t₁ ++ t₂) w₃ := by
  induction h₂ with
  | refl => simpa using h₁
  | tail _ hStep ih =>
    rw [← List.append_assoc]
    exact Run.tail ih hStep

/-- A system that can do what another does has its runs. -/
theorem Run.imp {P Q : Processes ι σ ℓ ε} {w w' : World ι σ ℓ} {trace : List (ι × Option ε)}
    (h : P.Run w trace w') (hStarts : ∀ {l}, P.starts l → Q.starts l)
    (hSteps : ∀ {i s l e s' l'}, P.step i s l e s' l' → Q.step i s l e s' l') :
    Q.Run w trace w' := by
  induction h with
  | refl => exact Run.refl
  | tail _ hStep ih =>
    refine Run.tail ih ?_
    cases hStep with
    | start hFree hBegins => exact Step.start hFree (hStarts hBegins)
    | act hLocal hAct => exact Step.act hLocal (hSteps hAct)

/-- A system whose only process has reached `l`. -/
def alone (s : σ) (l : ℓ) : World Unit σ ℓ := ⟨s, fun _ => some l⟩

theorem Run.alone_start {P : Processes Unit σ ℓ ε} {s : σ} {l : ℓ} (h : P.starts l) :
    P.Run (initial s) [((), none)] (alone s l) := by
  have hProcs : Function.update (fun _ => none) () (some l) = fun _ => some l :=
    funext fun _ => Function.update_self ..
  have hStep : P.Step (initial s) ((), none)
      ⟨s, Function.update (fun _ => none) () (some l)⟩ := Step.start rfl h
  rw [hProcs] at hStep
  exact Run.single hStep

theorem Run.alone_act {P : Processes Unit σ ℓ ε} {w : World Unit σ ℓ} {s s' : σ} {l l' : ℓ}
    {trace : List (Unit × Option ε)} {e : Option ε} (h : P.Run w trace (alone s l))
    (hStep : P.step () s l e s' l') : P.Run w (trace ++ [((), e)]) (alone s' l') := by
  have hProcs : Function.update (fun _ => some l) () (some l') = fun _ => some l' :=
    funext fun _ => Function.update_self ..
  have hAct : P.Step (alone s l) ((), e) ⟨s', Function.update (fun _ => some l) () (some l')⟩ :=
    Step.act rfl hStep
  rw [hProcs] at hAct
  exact Run.tail h hAct

/-- A system whose processes, numbered from zero, have reached `ls`. -/
def crew (s : σ) (ls : List ℓ) : World Nat σ ℓ := ⟨s, fun i => ls[i]?⟩

theorem Step.crew_start {P : Processes Nat σ ℓ ε} {s : σ} {ls : List ℓ} {l : ℓ}
    (h : P.starts l) : P.Step (crew s ls) (ls.length, none) (crew s (ls ++ [l])) := by
  have hProcs : Function.update (fun i => ls[i]?) ls.length (some l) = fun i => (ls ++ [l])[i]? := by
    funext i
    by_cases hEq : i = ls.length
    · subst hEq
      simp
    · rw [Function.update_of_ne hEq]
      rcases Nat.lt_or_ge i ls.length with hLt | hGe
      · rw [List.getElem?_append_left hLt]
      · rw [List.getElem?_eq_none hGe, List.getElem?_eq_none (by simp; omega)]
  have hFree : (crew s ls : World Nat σ ℓ).procs ls.length = none :=
    List.getElem?_eq_none (Nat.le_refl _)
  have hStep : P.Step (crew s ls) (ls.length, none)
      { crew s ls with procs := Function.update (crew s ls).procs ls.length (some l) } :=
    Step.start hFree h
  have hSame : (crew s ls : World Nat σ ℓ).procs = fun i => ls[i]? := rfl
  rw [hSame, hProcs] at hStep
  exact hStep

theorem Step.crew_act {P : Processes Nat σ ℓ ε} {s s' : σ} {ls : List ℓ} {i : Nat} {l l' : ℓ}
    {e : Option ε} (hLocal : ls[i]? = some l) (h : P.step i s l e s' l') :
    P.Step (crew s ls) (i, e) (crew s' (ls.set i l')) := by
  have hProcs : Function.update (fun j => ls[j]?) i (some l') = fun j => (ls.set i l')[j]? := by
    funext j
    by_cases hEq : j = i
    · subst hEq
      have hLt : j < ls.length := (List.getElem?_eq_some_iff.mp hLocal).1
      simp [hLt]
    · rw [Function.update_of_ne hEq, List.getElem?_set_ne (Ne.symm hEq)]
  have hStep : P.Step (crew s ls) (i, e) ⟨s', Function.update (crew s ls).procs i (some l')⟩ :=
    Step.act hLocal h
  have hSame : (crew s ls : World Nat σ ℓ).procs = fun j => ls[j]? := rfl
  rw [hSame, hProcs] at hStep
  exact hStep

theorem Run.crew_start {P : Processes Nat σ ℓ ε} {w : World Nat σ ℓ} {s : σ} {ls : List ℓ} {l : ℓ}
    {trace : List (Nat × Option ε)} (h : P.Run w trace (crew s ls)) (hStarts : P.starts l) :
    P.Run w (trace ++ [(ls.length, none)]) (crew s (ls ++ [l])) :=
  Run.tail h (Step.crew_start hStarts)

theorem Run.crew_act {P : Processes Nat σ ℓ ε} {w : World Nat σ ℓ} {s s' : σ} {ls : List ℓ}
    {i : Nat} {l l' : ℓ} {e : Option ε} {trace : List (Nat × Option ε)}
    (h : P.Run w trace (crew s ls)) (hLocal : ls[i]? = some l) (hStep : P.step i s l e s' l') :
    P.Run w (trace ++ [(i, e)]) (crew s' (ls.set i l')) :=
  Run.tail h (Step.crew_act hLocal hStep)

/-- The last visible event of a run: the process that made it, and the state it
left behind, from which the rest of the run is silent. -/
structure LastEvent (P : Processes ι σ ℓ ε) (w : World ι σ ℓ) (trace : List (ι × Option ε))
    (w' : World ι σ ℓ) (i : ι) (e : ε) (before after : World ι σ ℓ) : Prop where
  split : ∃ t₁ t₂, trace = t₁ ++ (i, some e) :: t₂ ∧ P.Run w t₁ before ∧ P.Run after t₂ w' ∧
    ∀ event ∈ t₂, event.2 = none
  step : P.Step before (i, some e) after

/-- A run is silent, or it has a last visible event. -/
theorem Run.silent_or_lastEvent {w w' : World ι σ ℓ} {trace : List (ι × Option ε)}
    (h : P.Run w trace w') :
    (∀ event ∈ trace, event.2 = none) ∨
      ∃ i e before after, P.LastEvent w trace w' i e before after := by
  induction h with
  | refl => exact Or.inl (by simp)
  | @tail trace mid last event hRun hStep ih =>
    obtain ⟨i, e⟩ := event
    cases e with
    | some e => exact Or.inr ⟨i, e, mid, last, ⟨trace, [], rfl, hRun, Run.refl, by simp⟩, hStep⟩
    | none =>
      rcases ih with hSilent | ⟨j, e, before, after, ⟨t₁, t₂, rfl, hBefore, hAfter, hSilent⟩, hLast⟩
      · refine Or.inl fun event hMem => ?_
        rcases List.mem_append.mp hMem with hMem | hMem
        · exact hSilent event hMem
        · rw [List.mem_singleton.mp hMem]
      · refine Or.inr ⟨j, e, before, after, ⟨t₁, t₂ ++ [(i, none)], by simp, hBefore,
          Run.tail hAfter hStep, fun event hMem => ?_⟩, hLast⟩
        rcases List.mem_append.mp hMem with hMem | hMem
        · exact hSilent event hMem
        · rw [List.mem_singleton.mp hMem]

/-- What no silent step changes, a silent run leaves as it was. -/
theorem Run.silent_eq {α : Type*} (view : σ → α)
    (hView : ∀ {w w' : World ι σ ℓ} {i : ι}, P.Step w (i, none) w' →
      view w'.shared = view w.shared)
    {w w' : World ι σ ℓ} {trace : List (ι × Option ε)} (h : P.Run w trace w')
    (hSilent : ∀ event ∈ trace, event.2 = none) : view w'.shared = view w.shared := by
  induction h with
  | refl => rfl
  | @tail trace mid last event _ hStep ih =>
    have hNone : event.2 = none := hSilent event (by simp)
    obtain ⟨i, e⟩ := event
    obtain rfl : e = none := hNone
    rw [hView hStep]
    exact ih fun event hMem => hSilent event (List.mem_append_left _ hMem)

/-- The same system with its visible events written down: `s.2` is the history. -/
def recorded (P : Processes ι σ ℓ ε) : Processes ι (σ × List ε) ℓ ε where
  starts := P.starts
  step i s l e s' l' := P.step i s.1 l e s'.1 l' ∧ s'.2 = s.2 ++ e.toList

/-- A run is a run of the recorded system, which has written down its trace. -/
theorem Run.recorded {s : σ} {w : World ι σ ℓ} {trace : List (ι × Option ε)}
    (h : P.Run (initial s) trace w) :
    P.recorded.Run (initial (s, [])) trace ⟨(w.shared, trace.filterMap Prod.snd), w.procs⟩ := by
  induction h with
  | refl => exact Run.refl
  | @tail trace mid last event _ hStep ih =>
    refine Run.tail ih ?_
    rw [List.filterMap_append]
    cases hStep with
    | @start i l hFree hStarts =>
      have hNil : [(i, (none : Option ε))].filterMap Prod.snd = [] := rfl
      rw [hNil, List.append_nil]
      exact Step.start hFree hStarts
    | @act i l l' e s' hLocal hAct =>
      have hEvent : [(i, e)].filterMap Prod.snd = e.toList := by cases e <;> rfl
      rw [hEvent]
      exact Step.act hLocal ⟨hAct, rfl⟩

/-- A rely–guarantee proof outline: an invariant of the shared state, an
assertion for each process, and what one action of a process may do to the
shared state. The obligations say that every action keeps the first two for the
process that takes it and stays within its guarantee, and that no guarantee of
another process breaks an assertion. -/
structure Outline (P : Processes ι σ ℓ ε) where
  inv : σ → Prop
  assertion : ι → σ → ℓ → Prop
  guarantee : ι → σ → σ → Prop
  starts : ∀ {i s l}, inv s → P.starts l → assertion i s l
  step : ∀ {i s l e s' l'}, inv s → assertion i s l → P.step i s l e s' l' →
    inv s' ∧ guarantee i s s' ∧ assertion i s' l'
  stable : ∀ {i j s s' l}, i ≠ j → inv s → inv s' → guarantee j s s' → assertion i s l →
    assertion i s' l

namespace Outline

variable (O : Outline P)

/-- The invariant holds and so does the assertion of every process in flight. -/
def Holds (w : World ι σ ℓ) : Prop :=
  O.inv w.shared ∧ ∀ i l, w.procs i = some l → O.assertion i w.shared l

omit [DecidableEq ι] in
theorem holds_initial {s : σ} (h : O.inv s) : O.Holds (initial s : World ι σ ℓ) :=
  ⟨h, fun _ _ hl => by simp [initial] at hl⟩

/-- One step keeps the outline, and an action stays within its guarantee. -/
theorem holds_step {w w' : World ι σ ℓ} {event : ι × Option ε} (hStep : P.Step w event w')
    (h : O.Holds w) :
    O.Holds w' ∧ (w'.shared = w.shared ∨ O.guarantee event.1 w.shared w'.shared) := by
  obtain ⟨hInv, hAssert⟩ := h
  cases hStep with
  | @start i l hFree hStarts =>
    refine ⟨⟨hInv, fun j m hm => ?_⟩, Or.inl rfl⟩
    by_cases hij : j = i
    · subst hij
      obtain rfl : l = m := by simpa using hm
      exact O.starts hInv hStarts
    · have hm' : w.procs j = some m := by simpa [Function.update_of_ne hij] using hm
      exact hAssert j m hm'
  | @act i l l' e s' hLocal hAct =>
    obtain ⟨hInv', hG, hAssert'⟩ := O.step hInv (hAssert i l hLocal) hAct
    refine ⟨⟨hInv', fun j m hm => ?_⟩, Or.inr hG⟩
    by_cases hij : j = i
    · subst hij
      obtain rfl : l' = m := by simpa using hm
      exact hAssert'
    · have hm' : w.procs j = some m := by simpa [Function.update_of_ne hij] using hm
      exact O.stable hij hInv hInv' hG (hAssert j m hm')

theorem holds_run {w w' : World ι σ ℓ} {trace : List (ι × Option ε)}
    (hRun : P.Run w trace w') (h : O.Holds w) : O.Holds w' := by
  induction hRun with
  | refl => exact h
  | tail _ hStep ih => exact (O.holds_step hStep ih).1

/-- What every action does to the shared state, a whole run does, when it is
reflexive and transitive. -/
theorem rel_run {T : σ → σ → Prop} (hRefl : ∀ s, T s s)
    (hTrans : ∀ {a b c}, T a b → T b c → T a c) (hSub : ∀ {i s s'}, O.guarantee i s s' → T s s')
    {w w' : World ι σ ℓ} {trace : List (ι × Option ε)}
    (hRun : P.Run w trace w') (h : O.Holds w) : T w.shared w'.shared := by
  induction hRun with
  | refl => exact hRefl _
  | tail hPrev hStep ih =>
    rcases (O.holds_step hStep (O.holds_run hPrev h)).2 with hEq | hG
    · rw [hEq]
      exact ih
    · exact hTrans ih (hSub hG)

end Outline

end Processes

end MempoolAtlas
