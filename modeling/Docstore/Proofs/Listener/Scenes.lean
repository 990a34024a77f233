import Docstore.Proofs.Bus.Receivers
import Docstore.Proofs.Listener.Run

/-!
# Runs among others

A scene interleaves the moves of a listener with the halves of any number of stops
and with whatever happens on the bus.  Every run of a scene is a run of its machine,
which others stop in between (`Run.reached`), and a history of its bus (`Run.traffic`).
So what is known of either holds in a scene.

`Owes` ties the two: the publication that a listener waits for has its event, and it
is not finished.
-/

namespace Docstore

theorem Act.move?_eq_some_iff {act : Act} {move : Move} :
    act.move? = some move ↔ act = .listener move := by
  cases act with
  | listener other =>
    exact ⟨fun h => congrArg Act.listener (Option.some.inj h),
      fun h => congrArg some (Act.listener.inj h)⟩
  | _ => simp [move?]

namespace Scene

variable {s mid last next : Scene} {act : Act} {acts more : List Act}

/-! ### Runs -/

theorem Run.append (h : Run s acts mid) (h' : Run mid more last) : Run s (acts ++ more) last := by
  induction h with
  | nil => exact h'
  | cons hstep _ ih => exact .cons hstep (ih h')

theorem Run.single (h : Step s act next) : Run s [act] next := .cons h (.nil next)

theorem Run.exists_of_append (h : Run s (acts ++ more) last) :
    ∃ mid, Run s acts mid ∧ Run mid more last := by
  induction acts generalizing s with
  | nil => exact ⟨s, .nil s, h⟩
  | cons act acts ih =>
    obtain _ | ⟨hstep, hrest⟩ := h
    obtain ⟨mid, hacts, hmore⟩ := ih hrest
    exact ⟨mid, .cons hstep hacts, hmore⟩

/-- A run is at some scene when an act of it happens. -/
theorem Run.exists_step (h : Run s (acts ++ act :: more) last) :
    ∃ mid next, Run s acts mid ∧ Step mid act next ∧ Run next more last := by
  obtain ⟨mid, hacts, hrest⟩ := h.exists_of_append
  obtain _ | ⟨hstep, hmore⟩ := hrest
  exact ⟨mid, _, hacts, hstep, hmore⟩

/-- **Induction on runs**: what holds where a run starts and is kept by every act
that is possible where the run has come, holds where it ends. -/
theorem Run.induction (h : Run s acts last) {motive : List Act → Scene → Prop}
    (hstart : motive [] s)
    (hstep : ∀ acts mid act next, Run s acts mid → motive acts mid → Step mid act next →
      motive (acts ++ [act]) next) : motive acts last := by
  induction acts using List.reverseRecOn generalizing last with
  | nil =>
    cases h
    exact hstart
  | append_singleton acts act ih =>
    obtain ⟨mid, next, hacts, hact, hrest⟩ := h.exists_step
    cases hrest
    exact hstep acts mid act _ hacts (ih hacts) hact

@[simp] theorem moves_append (as bs : List Act) : moves (as ++ bs) = moves as ++ moves bs :=
  List.filterMap_append

@[simp] theorem history_append (as bs : List Act) :
    history (as ++ bs) = history as ++ history bs := List.filterMap_append

@[simp] theorem moves_map_bus (ms : List Moment) : moves (ms.map .bus) = [] := by
  induction ms with
  | nil => rfl
  | cons m ms ih => exact ih

@[simp] theorem history_map_bus (ms : List Moment) : history (ms.map .bus) = ms := by
  induction ms with
  | nil => rfl
  | cons m ms ih => exact congrArg (m :: ·) ih

theorem moves_singleton (act : Act) : moves [act] = act.move?.toList := by
  cases hmove : act.move? <;> simp [moves, hmove]

theorem mem_moves_iff {move : Move} : move ∈ moves acts ↔ .listener move ∈ acts := by
  rw [moves, List.mem_filterMap]
  constructor
  · rintro ⟨act, hact, hmove⟩
    exact Act.move?_eq_some_iff.mp hmove ▸ hact
  · exact fun h => ⟨_, h, rfl⟩

/-! ### The machine and the bus of a scene -/

theorem Step.goes {move : Move} (h : Step s (.listener move) next) :
    s.machine.Goes move next.machine := by
  cases h with
  | quiet hmove => exact Machine.step_eq_some_iff.mp hmove
  | publish hmove => exact Machine.step_eq_some_iff.mp hmove
  | delivered hmove => exact Machine.step_eq_some_iff.mp hmove

theorem Step.reached {behind : List Move} (h : Step s act next)
    (hs : Machine.Reached behind s.machine) :
    Machine.Reached (behind ++ act.move?.toList) next.machine := by
  cases h with
  | quiet hmove => exact hs.moved (Machine.step_eq_some_iff.mp hmove)
  | publish hmove => exact hs.moved (Machine.step_eq_some_iff.mp hmove)
  | delivered hmove => exact hs.moved (Machine.step_eq_some_iff.mp hmove)
  | clear => exact (List.append_nil behind).symm ▸ hs.told false s.machine.wake
  | notify others hstopping => exact (List.append_nil behind).symm ▸ hs.told s.machine.running true
  | bus => exact (List.append_nil behind).symm ▸ hs

/-- **A run of a scene is one of its machine**, which others stop in between. -/
theorem Run.reached (h : Run {} acts s) : Machine.Reached (moves acts) s.machine := by
  refine h.induction (motive := fun acts s => Machine.Reached (moves acts) s.machine) .new
    fun acts mid act next _ ih hstep => ?_
  rw [moves_append, moves_singleton]
  exact hstep.reached ih

theorem Step.traffic (h : Step s act next) : s.traffic.Run act.moment?.toList next.traffic := by
  cases h with
  | quiet hmove hquiet => rw [Act.moment?, hquiet]; exact .nil s.traffic
  | publish hmove hbegins => exact .single hbegins
  | delivered hmove hfinishes => exact .single hfinishes
  | clear => exact .nil s.traffic
  | notify => exact .nil s.traffic
  | bus hmoment => exact .single hmoment

/-- **A run of a scene is a history of its bus.** -/
theorem Run.traffic (h : Run s acts last) : s.traffic.Run (history acts) last.traffic := by
  induction h with
  | nil s => exact .nil s.traffic
  | @cons s mid last act acts hstep _ ih =>
    have hcons : history (act :: acts) = act.moment?.toList ++ history acts := by
      cases hmoment : act.moment? <;> simp [history, hmoment]
    rw [hcons]
    exact hstep.traffic.append ih

/-- Whatever happens on the bus may happen in a scene, but for the end of the publication
that the listener waits for. -/
theorem run_map_bus (machine : Machine) (stopping : Nat) {t u : Traffic} {ms : List Moment}
    (h : t.Run ms u) (hothers : ∀ publication e, machine.phase.current? = some (publication, e) →
      ∀ crashed, .finishes publication crashed ∉ ms) :
    Run ⟨machine, stopping, t⟩ (ms.map .bus) ⟨machine, stopping, u⟩ := by
  induction h with
  | nil t => exact .nil _
  | @cons t u v m ms hstep hrest ih =>
    refine .cons (.bus hstep fun publication e hcurrent crashed hm => ?_) (ih fun publication e
      hcurrent crashed hmem => hothers publication e hcurrent crashed (List.mem_cons_of_mem m hmem))
    exact hothers publication e hcurrent crashed (hm ▸ List.mem_cons_self)

/-- A wake-up is left only when the flag is clear. -/
theorem Run.running_eq_false_of_wake (h : Run {} acts s) (hwake : s.machine.wake = true) :
    s.machine.running = false := by
  refine h.induction (motive := fun _ s => 0 < s.stopping ∨ s.machine.wake = true →
    s.machine.running = false) (by simp) ?_ (Or.inr hwake)
  intro acts mid act next _ ih hstep hnext
  cases hstep with
  | clear => rfl
  | notify others hstopping => exact ih (Or.inl (by omega))
  | bus => exact ih hnext
  | quiet hmove =>
    have hgoes := Machine.step_eq_some_iff.mp hmove
    exact hgoes.running_eq_false (ih (hnext.imp_right hgoes.wake_of_wake))
  | publish hmove =>
    have hgoes := Machine.step_eq_some_iff.mp hmove
    exact hgoes.running_eq_false (ih (hnext.imp_right hgoes.wake_of_wake))
  | delivered hmove =>
    have hgoes := Machine.step_eq_some_iff.mp hmove
    exact hgoes.running_eq_false (ih (hnext.imp_right hgoes.wake_of_wake))

/-! ### The publication that the listener waits for -/

/-- The publication that the listener waits for has its event, and is not finished. -/
def Owes (s : Scene) : Prop :=
  ∀ publication e, s.machine.phase.current? = some (publication, e) →
    ∃ q, s.traffic.publications[publication]? = some q ∧ q.event = e ∧ q.result = none

theorem Step.owes (h : Step s act next) (hs : s.Owes) : next.Owes := by
  intro publication e hcurrent
  cases h with
  | @quiet move machine hmove hquiet =>
    cases Machine.step_eq_some_iff.mp hmove with
    | publish => exact absurd hquiet (by simp [Move.moment?])
    | _ => exact absurd hcurrent (by simp [Phase.current?])
  | publish hmove hbegins =>
    cases Machine.step_eq_some_iff.mp hmove with
    | publish =>
      obtain ⟨rfl, rfl⟩ := Prod.mk.inj (Option.some.inj hcurrent)
      cases hbegins with
      | begins => exact ⟨_, List.getElem?_concat_length, rfl, rfl⟩
  | delivered hmove hfinishes =>
    cases Machine.step_eq_some_iff.mp hmove with
    | delivered => exact absurd hcurrent (by simp [Phase.current?])
  | clear => exact hs publication e hcurrent
  | notify others hstopping => exact hs publication e hcurrent
  | bus hmoment hothers =>
    obtain ⟨q, hq, hevent, hopen⟩ := hs publication e hcurrent
    obtain ⟨q', hq', hadvances⟩ := hmoment.advances hq
    refine ⟨q', hq', (hmoment.event_eq hq hq').trans hevent, ?_⟩
    refine Option.eq_none_iff_forall_ne_some.mpr fun crashed hresult => ?_
    rcases (hadvances.result crashed).mp hresult with hold | hnew
    · exact absurd (hopen.symm.trans hold) (by simp)
    · exact hothers publication e hcurrent crashed (List.mem_singleton.mp hnew).symm

theorem Run.owes (h : Run {} acts s) : s.Owes := by
  refine h.induction (motive := fun _ => Owes) ?_ fun _ _ _ _ _ ih hstep => hstep.owes ih
  exact fun publication e hcurrent => absurd hcurrent (by simp [Phase.current?])

end Scene

end Docstore
