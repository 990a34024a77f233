import Docstore.Proofs.Listener.Publishing
import Mathlib.Algebra.GroupWithZero.Nat
import Mathlib.Algebra.Notation.Prod

/-!
# The counters of a listener

Every request is counted when it is sent, and once more when its answer has been
dealt with: as idle, as failed or as applied.  So the counters balance whenever no
answer is on its way or in the listener's hands, and an answer that is thrown
away is all that can keep them apart in the end (`Settles`).

The other counters belong to the batches that were applied.  They are brought up to
date when a batch has been published: `Accounts` compares what is counted and what a
batch still holds with what the entries of the batches let out of a log that is read
from its start in one go, and with the crashes that the listener has heard of.  What
it hears is what happened (`Run.crashed_eq`), however the handlers behave.
`counters_balance` has all of it.

Counters are words and start again at zero.  A number of events or of crashes
becomes one by `UInt64.ofNat`, which is additive.
-/

namespace Docstore

/-! ### Requests and their answers -/

/-- How many requests have been counted whose answer has not. -/
def Phase.inFlight : Phase → UInt64
  | .fetching _ | .received _ | .handling _ | .publishing _ | .delivering .. => 1
  | _ => 0

namespace Machine

variable {moves : List Move} {m next : Machine}

/-- How the requests counted compare with the answers counted. -/
structure Settles (moves : List Move) (m : Machine) : Prop where
  balance : .recheck false ∉ moves → m.session.metrics.polls =
    m.session.metrics.idle + m.session.metrics.failed + m.session.metrics.applied + m.phase.inFlight
  late : .recheck false ∈ moves → (∃ result, m.phase = .ended result) ∧ m.session.metrics.polls =
    m.session.metrics.idle + m.session.metrics.failed + m.session.metrics.applied + 1

theorem Settles.move {move : Move} (h : Settles moves m) (hgoes : m.Goes move next) :
    Settles (moves ++ [move]) next := by
  -- nothing was thrown away before: the listener would have ended
  have hnone : .recheck false ∉ moves := fun hlate => by
    obtain ⟨⟨result, hended⟩, -⟩ := h.late hlate
    exact hgoes.phase_ne_ended result hended
  have hpolls := h.balance hnone
  have hquiet : next.phase.inFlight = m.phase.inFlight →
      next.session.metrics = m.session.metrics →
      next.session.metrics.polls = next.session.metrics.idle + next.session.metrics.failed +
        next.session.metrics.applied + next.phase.inFlight := by
    intro hflight hmetrics
    rw [hflight, hmetrics, hpolls]
  by_cases hmove : move = .recheck false
  · subst hmove
    refine ⟨fun hnot => absurd (List.mem_append_right _ (List.mem_singleton.mpr rfl)) hnot,
      fun _ => ?_⟩
    cases hgoes with
    | throwAway p hphase hstopped =>
      rw [hphase] at hpolls
      exact ⟨⟨_, rfl⟩, hpolls⟩
  · refine ⟨fun _ => ?_, fun hmem => ?_⟩
    · cases hgoes with
      | throwAway => exact absurd rfl hmove
      | ask hphase =>
        rw [hphase] at hpolls
        show m.session.metrics.polls + 1 = _
        rw [hpolls]
        simp [Phase.inFlight]
      | apply p session d hphase hhandle =>
        obtain ⟨last, es, -, rfl, -⟩ := Session.exists_accepted?_of_handle_eq_some hhandle
        rw [hphase] at hpolls
        exact hpolls
      | reject p session hphase hhandle =>
        rw [Session.handle_eq_of_none (Session.accepted?_of_handle_eq_none hhandle)] at hhandle
        obtain ⟨rfl, -⟩ := Prod.mk.inj hhandle
        simp only [hphase, Phase.inFlight] at hpolls ⊢
        split
        · grind
        · grind
      | settle d hphase hall =>
        simp only [hphase, Phase.inFlight] at hpolls ⊢
        show m.session.metrics.polls =
          m.session.metrics.idle + m.session.metrics.failed + (m.session.metrics.applied + 1) + 0
        grind
      | _ => exact hquiet (by simp only [Phase.inFlight, *]) rfl
    · rcases List.mem_append.mp hmem with hmem | hmem
      · exact absurd hmem hnone
      · exact absurd (List.mem_singleton.mp hmem).symm hmove

/-- Between rounds nothing is in flight, and nothing was thrown away. -/
theorem Settles.of_between (h : Settles moves m)
    (hphase : m.phase = .starting ∨ m.phase = .checking ∨ m.phase = .waiting) :
    m.session.metrics.polls =
      m.session.metrics.idle + m.session.metrics.failed + m.session.metrics.applied := by
  have hgoing : .recheck false ∉ moves := fun hlate => by
    obtain ⟨⟨result, hended⟩, -⟩ := h.late hlate
    rw [hended] at hphase
    simp at hphase
  have hflight : m.phase.inFlight = 0 := by
    rcases hphase with hphase | hphase | hphase <;> rw [hphase] <;> rfl
  have hpolls := h.balance hgoing
  rw [hflight] at hpolls
  exact hpolls.trans (UInt64.add_zero _)

theorem Settles.of_ended (h : Settles moves m) {result : Except Failure Nat}
    (hended : m.phase = .ended result) :
    let unanswered := m.session.metrics.polls -
      (m.session.metrics.idle + m.session.metrics.failed + m.session.metrics.applied)
    (unanswered = 0 ∨ unanswered = 1) ∧ (unanswered = 1 ↔ .recheck false ∈ moves) := by
  intro unanswered
  by_cases hlate : .recheck false ∈ moves
  · have hone : unanswered = 1 := by
      have hpolls := (h.late hlate).2
      grind
    exact ⟨Or.inr hone, fun _ => hlate, fun _ => hone⟩
  · have hzero : unanswered = 0 := by
      have hpolls := h.balance hlate
      rw [hended, Phase.inFlight.eq_def] at hpolls
      grind
    exact ⟨Or.inl hzero, fun hone => absurd (hzero.symm.trans hone) (by decide),
      fun h => absurd h hlate⟩

theorem Goes.of_recheck {goOn : Bool} (h : m.Goes (.recheck goOn) next) :
    ∃ p, m.phase = .received p ∧ m.running = goOn := by
  cases h with
  | take p hphase hrunning => exact ⟨p, hphase, hrunning⟩
  | throwAway p hphase hstopped => exact ⟨p, hphase, hstopped⟩

theorem Reached.settles (h : Reached moves m) : Settles moves m := by
  induction h with
  | new => exact ⟨fun _ => rfl, fun hlate => absurd hlate List.not_mem_nil⟩
  | told h running wake ih => exact ⟨ih.balance, ih.late⟩
  | moved h hgoes ih => exact ih.move hgoes

end Machine

/-! ### Batches and what they let out -/

/-- The entries of batches, read in one go from the start of a log, and what comes of them. -/
def readThrough (batches : List (Nat × List LogEntry)) : Transactions × Effect :=
  Transactions.run [] (batches.flatMap Prod.snd)

theorem tally_readThrough_concat (batches : List (Nat × List LogEntry)) (last : Nat)
    (es : List LogEntry) :
    (readThrough (batches ++ [(last, es)])).2.tally = (readThrough batches).2.tally +
      (Transactions.run (readThrough batches).1 es).2.tally := by
  rw [readThrough, List.flatMap_append, List.flatMap_singleton, Transactions.effect_run_append,
    Effect.tally_append, readThrough]

/-- The batches that come of the answers handled in these moves. -/
def Moves.applied (moves : List Move) : List (Nat × List LogEntry) :=
  accepted (starts moves) (handled moves)

theorem Moves.applied_concat {move : Move} (hstart : move.start? = none)
    (hhandled : move.handled? = none) (moves : List Move) :
    applied (moves ++ [move]) = applied moves := by
  simp [applied, hstart, hhandled]

def Metrics.outcomes (m : Metrics) : UInt64 × UInt64 × UInt64 × UInt64 × UInt64 :=
  (m.emitted, m.dropped, m.committed, m.aborted, m.crashes)

/-- What these counters are after these counts, when they start at zero. -/
def Tally.outcomes (t : Tally) (crashes : Nat) : UInt64 × UInt64 × UInt64 × UInt64 × UInt64 :=
  (.ofNat t.emitted, .ofNat t.dropped, .ofNat t.committed, .ofNat t.aborted, .ofNat crashes)

theorem Session.outcomes_count {m : Metrics} {counted : Tally} {crashed : Nat}
    (h : m.outcomes = counted.outcomes crashed) (d : Delivery) :
    (count m d).outcomes = (counted + d.tally).outcomes (crashed + d.crashed) := by
  have hcount : (count m d).outcomes = m.outcomes + d.tally.outcomes d.crashed := rfl
  simp only [hcount, h, Tally.outcomes, Tally.add_def, UInt64.ofNat_add, Prod.mk_add_mk]

theorem Moves.mem_published_iff {publication : Nat} {e : ChangeEvent} {moves : List Move} :
    (publication, e) ∈ published moves ↔ .publish publication e ∈ moves := by
  rw [published, List.mem_filterMap]
  constructor
  · rintro ⟨move, hmove, hpublished⟩
    cases move with
    | publish other first =>
      obtain ⟨rfl, rfl⟩ := Prod.mk.inj (Option.some.inj hpublished)
      exact hmove
    | _ => exact absurd hpublished (by simp [Move.published?])
  · exact fun h => ⟨_, h, rfl⟩

namespace Phase

/-- What a batch still holds that is to be counted. -/
def tally (phase : Phase) : Tally := (phase.delivery?.map Delivery.tally).getD 0

def crashed (phase : Phase) : Nat := (phase.delivery?.map Delivery.crashed).getD 0

theorem current?_eq_none {phase : Phase} (h : phase.delivery? = none) : phase.current? = none := by
  cases phase with
  | delivering => exact absurd h (by simp [delivery?])
  | _ => rfl

end Phase

namespace Machine

variable {moves : List Move} {m next : Machine}

theorem Follows.applied_eq {start : Nat} (h : Follows start moves m) :
    Moves.applied (.started (.ok start) :: moves) = accepted [start] (Moves.handled moves) := by
  show accepted (start :: Moves.starts moves) (Moves.handled moves) = _
  rw [h.once]

/-- The events of the batches applied are those published, and those that a batch still holds. -/
theorem Reached.published_readThrough (h : Reached moves m) :
    (Moves.published moves).map Prod.snd ++ m.phase.unpublished =
      (readThrough (Moves.applied moves)).2.events := by
  cases h.stage with
  | unbegun hphase hsession => rw [hphase]; rfl
  | failing cause hphase hsession => rw [hphase]; rfl
  | failed cause hphase hsession => rw [hphase]; rfl
  | @begun m start rest hfollows =>
    rw [hfollows.applied_eq, readThrough]
    exact hfollows.events.trans (Cursor.flatMap_events_applyAll _ _)

theorem Reached.emitted_readThrough (h : Reached moves m) (hnone : m.phase.delivery? = none) :
    (readThrough (Moves.applied moves)).2.tally.emitted = (Moves.published moves).length := by
  have hpublished := h.published_readThrough
  rw [Phase.unpublished, hnone, Option.map_none, Option.getD_none, List.append_nil] at hpublished
  rw [readThrough, Transactions.emitted_run, ← readThrough, ← hpublished, List.length_map]

/-- An answer that is handled adds its batch, if it is to be applied, and the open transactions
are those that the batches before it leave. -/
theorem Reached.applied_handle (h : Reached moves m) {p : Poll} (hphase : m.phase = .handling p) :
    Moves.applied (moves ++ [.handle p]) =
        Moves.applied moves ++ (Session.accepted? m.session.cursor.tick p).toList ∧
      m.session.cursor.transactions = (readThrough (Moves.applied moves)).1 := by
  cases h.stage with
  | unbegun hphase' => rw [hphase] at hphase'; exact absurd hphase' Phase.noConfusion
  | failing cause hphase' => rw [hphase] at hphase'; exact absurd hphase' Phase.noConfusion
  | failed cause hphase' => rw [hphase] at hphase'; exact absurd hphase' Phase.noConfusion
  | @begun m start rest hfollows =>
    rw [hfollows.applied_eq, hfollows.cursor]
    refine ⟨?_, Cursor.transactions_applyAll _ _⟩
    rw [← accepted_concat, Moves.applied, Moves.starts_append, Moves.handled_append]
    show accepted (start :: Moves.starts rest ++ []) (Moves.handled rest ++ [p]) = _
    rw [hfollows.once]
    rfl

/-- What a listener has counted, in terms of the batches that it applied and of the crashes that
it heard of. -/
structure Accounts (counted : Tally) (crashed : Nat) (moves : List Move) (m : Machine) : Prop where
  outcomes : m.session.metrics.outcomes = counted.outcomes crashed
  tally : counted + m.phase.tally = (readThrough (Moves.applied moves)).2.tally
  crashes : crashed + m.phase.crashed = (Moves.crashed moves).sum

namespace Accounts

variable {counted : Tally} {crashed : Nat}

theorem of_quiet (h : Accounts counted crashed moves m) {move : Move}
    (houtcomes : next.session.metrics.outcomes = m.session.metrics.outcomes)
    (htally : next.phase.tally = m.phase.tally) (hcrashed : next.phase.crashed = m.phase.crashed)
    (happlied : Moves.applied (moves ++ [move]) = Moves.applied moves)
    (hquiet : move.crashed? = none) : Accounts counted crashed (moves ++ [move]) next where
  outcomes := houtcomes.trans h.outcomes
  tally := by rw [htally, happlied]; exact h.tally
  crashes := by simp [hcrashed, hquiet, h.crashes]

theorem take (h : Accounts counted crashed moves m) (hreached : Reached moves m) {p : Poll}
    (hphase : m.phase = .handling p) {last : Nat} {es : List LogEntry}
    (haccepted : Session.accepted? m.session.cursor.tick p = some (last, es))
    (hmetrics : next.session.metrics = m.session.metrics)
    (hnext : next.phase = .publishing
      { unpublished := (m.session.cursor.apply last es).2.events
        tally := (m.session.cursor.apply last es).2.tally }) :
    Accounts counted crashed (moves ++ [.handle p]) next := by
  obtain ⟨happlied, htransactions⟩ := hreached.applied_handle hphase
  have htally := h.tally
  have hcrashes := h.crashes
  rw [hphase] at htally hcrashes
  refine ⟨hmetrics ▸ h.outcomes, ?_, ?_⟩
  · rw [happlied, haccepted, Option.toList_some, tally_readThrough_concat, ← htransactions,
      ← htally, hnext, Cursor.effect_apply]
    exact congrArg (· + _) (add_zero counted).symm
  · rw [Moves.crashed_append, hnext]
    simpa [Move.crashed?, Phase.crashed, Phase.delivery?] using hcrashes

theorem delivered (h : Accounts counted crashed moves m) {publication n : Nat} {e : ChangeEvent}
    {d : Delivery} (hphase : m.phase = .delivering publication e d)
    (hmetrics : next.session.metrics = m.session.metrics)
    (hnext : next.phase = .publishing { d with crashed := d.crashed + n }) :
    Accounts counted crashed (moves ++ [.delivered publication e n]) next := by
  have htally := h.tally
  have hcrashes := h.crashes
  rw [hphase] at htally hcrashes
  refine ⟨hmetrics ▸ h.outcomes, ?_, ?_⟩
  · rw [Moves.applied_concat rfl rfl, hnext]
    exact htally
  · rw [Moves.crashed_append, List.sum_append, ← hcrashes, hnext]
    exact (Nat.add_assoc crashed d.crashed n).symm

/-- What a batch holds is counted when all its events are published. -/
theorem settle (h : Accounts counted crashed moves m) {d : Delivery}
    (hphase : m.phase = .publishing d)
    (hmetrics : next.session.metrics = Session.count m.session.metrics d)
    (hnext : next.phase = .checking) :
    Accounts (counted + d.tally) (crashed + d.crashed) (moves ++ [.settle]) next := by
  have htally := h.tally
  have hcrashes := h.crashes
  rw [hphase] at htally hcrashes
  refine ⟨hmetrics ▸ Session.outcomes_count h.outcomes d, ?_, ?_⟩
  · rw [Moves.applied_concat rfl rfl, hnext]
    exact (add_zero _).trans htally
  · rw [Moves.crashed_append, List.sum_append, ← hcrashes, hnext]
    rfl

end Accounts

theorem Reached.eq_nil (h : Reached moves m) (hphase : m.phase = .starting) : moves = [] := by
  cases h.stage with
  | unbegun => rfl
  | failing cause hphase' => rw [hphase] at hphase'; exact absurd hphase' Phase.noConfusion
  | failed cause hphase' => rw [hphase] at hphase'; exact absurd hphase' Phase.noConfusion
  | begun hfollows =>
    have hbegun := hfollows.begun
    rw [hphase] at hbegun
    exact absurd hbegun id

theorem Reached.exists_accounts (h : Reached moves m) :
    ∃ counted crashed, Accounts counted crashed moves m := by
  induction h with
  | new => exact ⟨0, 0, rfl, rfl, rfl⟩
  | told h running wake ih =>
    obtain ⟨counted, crashed, ih⟩ := ih
    exact ⟨counted, crashed, ih.outcomes, ih.tally, ih.crashes⟩
  | @moved moves m next move h hgoes ih =>
    obtain ⟨counted, crashed, ih⟩ := ih
    cases hgoes with
    | start tick hphase =>
      obtain rfl := h.eq_nil hphase
      refine ⟨counted, crashed, ih.of_quiet rfl ?_ ?_ rfl rfl⟩
      · rw [hphase]; rfl
      · rw [hphase]; rfl
    | apply p session d hphase hhandle =>
      obtain ⟨last, es, haccepted, rfl, rfl⟩ := Session.exists_accepted?_of_handle_eq_some hhandle
      exact ⟨counted, crashed, ih.take h hphase haccepted rfl rfl⟩
    | reject p session hphase hhandle =>
      have haccepted := Session.accepted?_of_handle_eq_none hhandle
      rw [Session.handle_eq_of_none haccepted] at hhandle
      obtain ⟨rfl, -⟩ := Prod.mk.inj hhandle
      refine ⟨counted, crashed, ih.of_quiet ?_ ?_ ?_ ?_ rfl⟩
      · dsimp only
        split <;> rfl
      · rw [hphase]; rfl
      · rw [hphase]; rfl
      · rw [(h.applied_handle hphase).1, haccepted, Option.toList_none, List.append_nil]
    | delivered publication e d n hphase => exact ⟨counted, crashed, ih.delivered hphase rfl rfl⟩
    | settle d hphase hall => exact ⟨_, _, ih.settle hphase rfl rfl⟩
    | _ =>
      refine ⟨counted, crashed, ih.of_quiet rfl ?_ ?_ (Moves.applied_concat rfl rfl _) rfl⟩
      · simp only [Phase.tally, Phase.delivery?, Option.map_some, *]
      · simp only [Phase.crashed, Phase.delivery?, Option.map_some, *]

end Machine

namespace Scene

variable {acts : List Act} {s : Scene}

/-- **What the listener hears of crashes is what happened**: as many calls crashed in the course
of the publication. -/
theorem Run.crashes_of_delivered (h : Run {} acts s) {publication n : Nat} {e : ChangeEvent}
    (hmem : .listener (.delivered publication e n) ∈ acts) :
    n = Traffic.crashes publication (history acts) := by
  have hfinishes : .finishes publication n ∈ history acts := List.mem_filterMap.mpr ⟨_, hmem, rfl⟩
  obtain ⟨before, after, rfl⟩ := List.append_of_mem hmem
  obtain ⟨mid, next, hbefore, hstep, -⟩ := h.exists_step
  obtain ⟨d, hphase⟩ := hstep.goes.of_delivered
  have hpublished : (publication, e) ∈ Moves.published (moves before) := by
    rw [hbefore.reached.published_eq, hphase]
    exact List.mem_append_right _ (List.mem_singleton.mpr rfl)
  obtain ⟨earlier, between, hacts⟩ :=
    List.append_of_mem (mem_moves_iff.mp (Moves.mem_published_iff.mp hpublished))
  have hserves := (h.delivers.served earlier publication e
    (between ++ .listener (.delivered publication e n) :: after) (by simp [hacts])).2
  exact hserves.counts n hfinishes

/-- The numbers of crashes that the listener hears are those of the publications it waited for. -/
theorem Run.crashed_eq (h : Run {} acts s) :
    Moves.crashed (moves acts) =
      (Moves.delivered (moves acts)).map fun x => Traffic.crashes x.1 (history acts) := by
  rw [Moves.crashed, Moves.delivered, List.map_filterMap]
  refine List.filterMap_congr fun move hmove => ?_
  cases move with
  | delivered publication e n =>
    exact congrArg some (h.crashes_of_delivered (mem_moves_iff.mp hmove))
  | _ => rfl

/-- Between batches the counters are those of the batches applied, and of the crashes. -/
theorem Run.outcomes_eq (h : Run {} acts s) (hnone : s.machine.phase.delivery? = none) :
    s.machine.session.metrics.outcomes =
      (readThrough (Moves.applied (moves acts))).2.tally.outcomes
        ((Moves.published (moves acts)).map fun x => Traffic.crashes x.1 (history acts)).sum := by
  obtain ⟨counted, crashed, haccounts⟩ := h.reached.exists_accounts
  have htally := haccounts.tally
  rw [Phase.tally, hnone] at htally
  have hcrashes := haccounts.crashes
  have hcurrent := h.delivers.inTurn
  rw [Phase.current?_eq_none hnone, Option.toList_none, List.append_nil] at hcurrent
  rw [Phase.crashed, hnone, h.crashed_eq, ← hcurrent] at hcrashes
  rw [haccounts.outcomes, ← htally, ← hcrashes]
  exact congrArg (Tally.outcomes · _) (add_zero counted).symm

/-- A look after an answer that finds the flag clear, where it happened. -/
theorem Run.recheck_mem_iff (h : Run {} acts s) :
    .recheck false ∈ moves acts ↔
      ∃ before after mid p, acts = before ++ .listener (.recheck false) :: after ∧
        Run {} before mid ∧ mid.machine.phase = .received p ∧ mid.machine.running = false := by
  constructor
  · intro hmem
    obtain ⟨before, after, rfl⟩ := List.append_of_mem (mem_moves_iff.mp hmem)
    obtain ⟨mid, next, hbefore, hstep, -⟩ := h.exists_step
    obtain ⟨p, hphase, hclear⟩ := hstep.goes.of_recheck
    exact ⟨before, after, mid, p, rfl, hbefore, hphase, hclear⟩
  · rintro ⟨before, after, mid, p, rfl, -⟩
    exact mem_moves_iff.mpr (List.mem_append_right _ List.mem_cons_self)

/-- **The counters balance**, however the listener is stopped and whatever handlers and others do on
the bus.  Between its rounds every request is counted once more by its answer.  When it has ended,
at most one is not, and one is exactly if a look after an answer found the flag cleared.

What was published are the events of the batches that were applied, but for those that the last one
still holds.  Between batches the other counters are the number of events published, the number of
calls that crashed in the course of these publications, and the sums over the batches applied; where
the log ended at first makes no difference to them. -/
theorem counters_balance (h : Run {} acts s) :
    let m := s.machine.session.metrics
    let unanswered := m.polls - (m.idle + m.failed + m.applied)
    let published := Moves.published (moves acts)
    let batches := accepted (Moves.starts (moves acts)) (Moves.handled (moves acts))
    let effects := (({} : Cursor).applyAll batches).2
    let total := (effects.map Effect.tally).sum
    (s.machine.phase = .starting ∨ s.machine.phase = .checking ∨ s.machine.phase = .waiting →
      m.polls = m.idle + m.failed + m.applied) ∧
    (∀ result, s.machine.phase = .ended result →
      (unanswered = 0 ∨ unanswered = 1) ∧
      (unanswered = 1 ↔ ∃ before after mid p, acts = before ++ .listener (.recheck false) :: after ∧
        Run {} before mid ∧ mid.machine.phase = .received p ∧ mid.machine.running = false)) ∧
    published.map Prod.snd ++ s.machine.phase.unpublished = effects.flatMap Effect.events ∧
    (s.machine.phase.delivery? = none →
      m.emitted = .ofNat published.length ∧
      m.crashes = .ofNat (published.map fun x => Traffic.crashes x.1 (history acts)).sum ∧
      m.dropped = .ofNat total.dropped ∧
      m.committed = .ofNat total.committed ∧
      m.aborted = .ofNat total.aborted) := by
  intro m unanswered published batches effects total
  have hsettles := h.reached.settles
  have hevents : effects.flatMap Effect.events = (readThrough batches).2.events :=
    Cursor.flatMap_events_applyAll {} batches
  have htotal : total = (readThrough batches).2.tally := Cursor.sum_tally_applyAll {} batches
  refine ⟨hsettles.of_between, fun result hended => ?_, ?_, fun hnone => ?_⟩
  · rw [← h.recheck_mem_iff]
    exact hsettles.of_ended hended
  · rw [hevents]
    exact h.reached.published_readThrough
  · have houtcomes := h.outcomes_eq hnone
    simp only [Metrics.outcomes, Tally.outcomes, Prod.mk.injEq] at houtcomes
    obtain ⟨hemitted, hdropped, hcommitted, haborted, hcrashes⟩ := houtcomes
    rw [h.reached.emitted_readThrough hnone] at hemitted
    rw [htotal]
    exact ⟨hemitted, hcrashes, hdropped, hcommitted, haborted⟩

/-- A stop while the answer is on its way; and a batch with a transaction, an entry that is
dropped, and a handler that crashes on its first call and not on its second. -/
theorem counters_balance_late :
    let late : List Act := [.listener (.started (.ok 5)), .listener (.check true),
      .listener (.ask 5), .clear, .listener (.answer .idle), .listener (.recheck false), .notify]
    let p := Poll.batch 7 ("\x7b\"type\":2300,\"tid\":7,\"data\":\x7b\"_id\":\"a/1\"\x7d\x7d\n" ++
      "\x7b\"type\":2201,\"tid\":7\x7d\n\x7b\"type\":2300,\"data\":1\x7d\n" ++
      "\x7b\"type\":2300,\"data\":\x7b\"_id\":\"a/2\"\x7d\x7d")
    let event (id : String) : ChangeEvent :=
      { collection := "a", document := .object [("_id", .string id)], kind := .createOrUpdate
        tick := none }
    let h : Handler := .mk "h" [] false
    let busy : List Act := [.bus (.registers .all h), .listener (.started (.ok 5)),
      .listener (.check true), .listener (.ask 5), .listener (.answer p), .listener (.recheck true),
      .listener (.handle p), .listener (.publish 0 (event "a/1")), .bus (.calls 0 h),
      .bus (.ends 0 true), .listener (.delivered 0 (event "a/1") 1),
      .listener (.publish 1 (event "a/2")), .bus (.calls 1 h), .bus (.ends 1 false),
      .listener (.delivered 1 (event "a/2") 0), .listener .settle]
    (∃ s, Run {} late s ∧ s.machine.session.metrics.polls - (s.machine.session.metrics.idle +
      s.machine.session.metrics.failed + s.machine.session.metrics.applied) = 1) ∧
    ∃ s, Run {} busy s ∧ s.machine.session.metrics.emitted = 2 ∧
      s.machine.session.metrics.crashes = 1 ∧ s.machine.session.metrics.dropped = 1 ∧
      s.machine.session.metrics.committed = 1 := by
  intro late p event h busy
  constructor
  · obtain ⟨mid, s, hmid, hrest, hphase, hclear, hended⟩ : ∃ mid s, Run {} (late.take 5) mid ∧
        Run mid (late.drop 5) s ∧ mid.machine.phase = .received .idle ∧
        mid.machine.running = false ∧ s.machine.phase = .ended (.ok 5) :=
      ⟨_, _, .cons (.quiet rfl rfl) (.cons (.quiet rfl rfl) (.cons (.quiet rfl rfl) (.cons .clear
        (.single (.quiet rfl rfl))))), .cons (.quiet rfl rfl) (.single (.notify 0 rfl)),
        rfl, rfl, rfl⟩
    have hrun : Run {} late s := hmid.append hrest
    exact ⟨s, hrun, ((counters_balance hrun).2.1 _ hended).2.mpr
      ⟨late.take 5, [.notify], mid, .idle, rfl, hmid, hphase, hclear⟩⟩
  · let d : Delivery :=
      { unpublished := [event "a/1", event "a/2"]
        tally := { emitted := 2, dropped := 1, committed := 1 } }
    let asked : Session := { cursor := { tick := 5 }, metrics := { polls := 1 } }
    have hdelivery : (asked.handle p).2 = some d := by decide +kernel
    obtain ⟨session, hhandle⟩ : ∃ session, asked.handle p = (session, some d) := by
      generalize asked.handle p = after at hdelivery ⊢
      exact ⟨after.1, Prod.ext rfl hdelivery⟩
    let scene (phase : Phase) (session : Session) (publications : List Publication) : Scene :=
      { machine := { phase, session }, traffic := { bus := { catchAll := [h] }, publications } }
    let held : Delivery := { d with unpublished := [event "a/2"], crashed := 1 }
    let called (id : String) (crashed : Nat) (result : Option Nat) : Publication :=
      { event := event id, waiting := [], crashed, result }
    have hasked : Run {} (busy.take 4) (scene (.fetching 5) asked []) :=
      .cons (.bus (.registers ..) (by simp [Phase.current?])) (.cons (.quiet rfl rfl)
        (.cons (.quiet rfl rfl) (.single (.quiet rfl rfl))))
    have happly : (scene (.handling p) asked []).machine.Goes (.handle p)
        (scene (.publishing d) session []).machine := .apply p session d rfl hhandle
    have happlied : Run (scene (.fetching 5) asked []) [.listener (.answer p),
        .listener (.recheck true), .listener (.handle p)] (scene (.publishing d) session []) :=
      .cons (.quiet rfl rfl) (.cons (.quiet rfl rfl)
        (.single (.quiet happly.step_eq rfl)))
    have hfirst : Run (scene (.publishing d) session []) [.listener (.publish 0 (event "a/1")),
        .bus (.calls 0 h), .bus (.ends 0 true), .listener (.delivered 0 (event "a/1") 1)]
        (scene (.publishing held) session [called "a/1" 1 (some 1)]) :=
      .cons (.publish rfl (.begins ..))
        (.cons (.bus (.calls rfl rfl rfl) fun _ _ _ _ => Moment.noConfusion)
        (.cons (.bus (.ends rfl rfl true) fun _ _ _ _ => Moment.noConfusion)
        (.single (.delivered rfl (.finishes (q := called "a/1" 1 none) rfl rfl rfl rfl)))))
    have hsecond : Run (scene (.publishing held) session [called "a/1" 1 (some 1)])
        [.listener (.publish 1 (event "a/2")), .bus (.calls 1 h), .bus (.ends 1 false),
          .listener (.delivered 1 (event "a/2") 0)]
        (scene (.publishing { held with unpublished := [] }) session
          [called "a/1" 1 (some 1), called "a/2" 0 (some 0)]) :=
      .cons (.publish rfl (.begins ..))
        (.cons (.bus (.calls rfl rfl rfl) fun _ _ _ _ => Moment.noConfusion)
        (.cons (.bus (.ends rfl rfl false) fun _ _ _ _ => Moment.noConfusion)
        (.single (.delivered rfl (.finishes (q := called "a/2" 0 none) rfl rfl rfl rfl)))))
    have hsettle : Run (scene (.publishing { held with unpublished := [] }) session
        [called "a/1" 1 (some 1), called "a/2" 0 (some 0)]) [.listener .settle] _ :=
      .single (.quiet rfl rfl)
    have hrun : Run {} busy _ :=
      hasked.append (happlied.append (hfirst.append (hsecond.append hsettle)))
    obtain ⟨hemitted, hcrashes, hdropped, hcommitted, -⟩ := (counters_balance hrun).2.2.2 rfl
    have hstarts : Moves.starts (moves busy) = [5] := rfl
    have hhandled : Moves.handled (moves busy) = [p] := rfl
    have heffects : (({} : Cursor).applyAll (accepted [5] [p])).2.map Effect.tally = [d.tally] := by
      decide +kernel
    rw [hstarts, hhandled, heffects] at hdropped hcommitted
    exact ⟨_, hrun, hemitted, hcrashes, hdropped, hcommitted⟩

end Scene

end Docstore
