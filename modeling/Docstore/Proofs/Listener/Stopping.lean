import Docstore.Proofs.Listener.Position
import Docstore.Proofs.Listener.Scenes

/-!
# What a stop does, whenever it comes

A stop clears the flag and leaves a wake-up, and the listener may be anywhere
when either happens.  `Heeds` is the invariant that ties flag, wake-up and phase
together.  Once the flag is clear it stays clear, so no look at it lets the listener
go on any more (`Halts`).  What a look let through before is still done: a request
that was about to be sent, a batch that was about to be applied.

Once a stop has returned, a listener that waits, or may still come to a wait, has a
wake-up left: it would take an answer out of a look to get there without one, and
that look reads the flag.

`Machine.rank` bounds the moves that a listener has left when its flag is clear, and
`Run.exists_advance_iff` says that it is never stuck before its end.  `stop_heeded`
puts them together.
-/

namespace Docstore

/-! ### One move -/

/-- The phases with a wait ahead that no look at the flag stands in front of. -/
def Phase.Rests : Phase → Prop
  | .handling _ | .waiting => True
  | _ => False

/-- How many requests a look at the flag has let through that have yet to be sent. -/
def Phase.pending : Phase → Nat
  | .asking => 1
  | _ => 0

namespace Machine

variable {m next : Machine} {move : Move}

/-- How many moves are left, at most, when the flag is clear.  Each event that is still to be
published takes two. -/
def rank (m : Machine) : Nat :=
  match m.phase with
  | .handling p =>
      2 * (((m.session.handle p).2.map Delivery.unpublished).getD []).length + 3
  | .publishing d => 2 * d.unpublished.length + 2
  | .delivering _ _ d => 2 * d.unpublished.length + 3
  | .asking => 3
  | .starting | .fetching _ | .waiting => 2
  | .reporting _ | .checking | .received _ => 1
  | .ended _ => 0

/-- With the flag clear, a wake-up that is left stays until the wait is over. -/
theorem Goes.wake_eq_true (h : m.Goes move next) (hclear : m.running = false)
    (hwake : m.phase.Rests → m.wake = true) : next.phase.Rests → next.wake = true := by
  intro hrests
  cases h with
  | take p hphase hrunning => rw [hclear] at hrunning; exact absurd hrunning Bool.false_ne_true
  | reject p session hphase hhandle => exact hwake (by rw [hphase]; trivial)
  | _ => exact absurd hrests id

theorem Goes.rank_lt (h : m.Goes move next) (hclear : m.running = false) :
    next.rank < m.rank := by
  cases h with
  | goOn hphase hrunning => rw [hclear] at hrunning; exact absurd hrunning Bool.false_ne_true
  | take p hphase hrunning => rw [hclear] at hrunning; exact absurd hrunning Bool.false_ne_true
  | apply p session d hphase hhandle => simp [rank, hphase, hhandle]
  | reject p session hphase hhandle => simp [rank, hphase, hhandle]
  | publish publication e rest d hphase hfirst => simp [rank, hphase, hfirst]; omega
  | delivered publication e d crashed hphase => simp [rank, hphase]
  | settle d hphase hall => simp [rank, hphase]
  | _ => simp [rank, *]

/-- With the flag clear, a request is sent if a look has let it through before. -/
theorem Goes.pending_eq (h : m.Goes move next) (hclear : m.running = false) :
    move.asked?.toList.length + next.phase.pending = m.phase.pending := by
  cases h with
  | goOn hphase hrunning => rw [hclear] at hrunning; exact absurd hrunning Bool.false_ne_true
  | _ => simp [Phase.pending, Move.asked?, *]

theorem Goes.running_of_look (h : m.Goes move next)
    (hlook : move = .check true ∨ move = .recheck true) : m.running = true := by
  cases h with
  | goOn hphase hrunning => exact hrunning
  | take p hphase hrunning => exact hrunning
  | _ => simp at hlook

/-- With the flag clear, an answer that has come can only be thrown away. -/
theorem Goes.of_received (h : m.Goes move next) (hclear : m.running = false) {p : Poll}
    (hphase : m.phase = .received p) :
    move = .recheck false ∧ next = { m with phase := .ended (.ok m.session.cursor.tick) } := by
  have hstep := h.step_eq
  cases move with
  | recheck goOn =>
    simp only [step, hphase] at hstep
    obtain ⟨-, hrunning, -⟩ | ⟨rfl, -, rfl⟩ := look_eq_some_iff.mp hstep
    · rw [hclear] at hrunning
      exact absurd hrunning Bool.false_ne_true
    · exact ⟨rfl, rfl⟩
  | _ => simp [step, hphase] at hstep

end Machine

/-- The act is a move of the listener, or the publication that it waits for goes on by it. -/
def Act.Advances (phase : Phase) : Act → Prop
  | .listener _ => True
  | .bus m => ∃ publication e, phase.current? = some (publication, e) ∧ m.isOf publication = true
  | _ => False

namespace Scene

variable {s mid last next : Scene} {act : Act} {acts more : List Act}

/-! ### Flag and wake-up -/

/-- What holds of a scene after these acts, of those who stop and of the listener. -/
structure Heeds (acts : List Act) (s : Scene) : Prop where
  cleared : 0 < s.stopping ∨ .notify ∈ acts → .clear ∈ acts
  halted : .clear ∈ acts → s.machine.running = false
  roused : .notify ∈ acts → s.machine.phase.Rests → s.machine.wake = true

namespace Heeds

/-- An act that is no half of a stop. -/
theorem of_other (h : Heeds acts s) (hclear : act ≠ .clear) (hnotify : act ≠ .notify)
    (hstopping : next.stopping = s.stopping)
    (hrunning : s.machine.running = false → next.machine.running = false)
    (hwake : s.machine.running = false → (s.machine.phase.Rests → s.machine.wake = true) →
      next.machine.phase.Rests → next.machine.wake = true) : Heeds (acts ++ [act]) next := by
  have hcleared : .clear ∈ acts ++ [act] → Act.clear ∈ acts := fun h =>
    (List.mem_append.mp h).resolve_right fun h => hclear (List.mem_singleton.mp h).symm
  have hnotified : .notify ∈ acts ++ [act] → Act.notify ∈ acts := fun h =>
    (List.mem_append.mp h).resolve_right fun h => hnotify (List.mem_singleton.mp h).symm
  refine ⟨fun hs => ?_, fun hc => ?_, fun hn => ?_⟩
  · rw [hstopping] at hs
    exact List.mem_append_left _ (h.cleared (hs.imp_right hnotified))
  · exact hrunning (h.halted (hcleared hc))
  · exact hwake (h.halted (h.cleared (Or.inr (hnotified hn)))) (h.roused (hnotified hn))

theorem step (h : Heeds acts s) (hstep : Step s act next) : Heeds (acts ++ [act]) next := by
  cases hstep with
  | clear =>
    have hnotify : .notify ∈ acts ++ [.clear] → Act.notify ∈ acts := by simp
    exact ⟨fun _ => List.mem_append_right _ (List.mem_singleton.mpr rfl), fun _ => rfl,
      fun hn => h.roused (hnotify hn)⟩
  | notify others hstopping =>
    have hcleared : Act.clear ∈ acts := h.cleared (Or.inl (by rw [hstopping]; omega))
    exact ⟨fun _ => List.mem_append_left _ hcleared, fun _ => h.halted hcleared, fun _ _ => rfl⟩
  | bus => exact h.of_other Act.noConfusion Act.noConfusion rfl id fun _ hwake => hwake
  | quiet hmove =>
    have hgoes := Machine.step_eq_some_iff.mp hmove
    exact h.of_other Act.noConfusion Act.noConfusion rfl hgoes.running_eq_false hgoes.wake_eq_true
  | publish hmove =>
    have hgoes := Machine.step_eq_some_iff.mp hmove
    exact h.of_other Act.noConfusion Act.noConfusion rfl hgoes.running_eq_false hgoes.wake_eq_true
  | delivered hmove =>
    have hgoes := Machine.step_eq_some_iff.mp hmove
    exact h.of_other Act.noConfusion Act.noConfusion rfl hgoes.running_eq_false hgoes.wake_eq_true

end Heeds

/-- What is not a move of the listener leaves its phase and its session, and never sets its flag. -/
theorem Step.of_other (h : Step s act next) (hother : act.move? = none) :
    next.machine.phase = s.machine.phase ∧ next.machine.session = s.machine.session ∧
      (s.machine.running = false → next.machine.running = false) := by
  cases h with
  | clear => exact ⟨rfl, rfl, fun _ => rfl⟩
  | notify others hstopping => exact ⟨rfl, rfl, id⟩
  | bus => exact ⟨rfl, rfl, id⟩
  | _ => exact absurd hother (by simp [Act.move?])

/-- What a listener may still do whose flag is clear.  It sends the requests that a look has let
through before, and no others. -/
structure Halts (s : Scene) (more : List Act) (last : Scene) : Prop where
  running : last.machine.running = false
  looks : .check true ∉ moves more ∧ .recheck true ∉ moves more
  asked : (Moves.asked (moves more)).length + last.machine.phase.pending = s.machine.phase.pending
  few : (moves more).length + last.machine.rank ≤ s.machine.rank

theorem Halts.step (h : Halts s more mid) (hstep : Step mid act next) :
    Halts s (more ++ [act]) next := by
  cases hmove : act.move? with
  | none =>
    obtain ⟨hphase, hsession, hrunning⟩ := hstep.of_other hmove
    have hrank : next.machine.rank = mid.machine.rank := by
      rw [Machine.rank, Machine.rank, hphase, hsession]
    have hmoves : moves (more ++ [act]) = moves more := by
      rw [moves_append, moves_singleton, hmove, Option.toList_none, List.append_nil]
    refine ⟨hrunning h.running, ?_, ?_, ?_⟩
    · rw [hmoves]; exact h.looks
    · rw [hmoves, hphase]; exact h.asked
    · rw [hmoves, hrank]; exact h.few
  | some move =>
    obtain rfl := Act.move?_eq_some_iff.mp hmove
    have hgoes := hstep.goes
    have hmoves : moves (more ++ [.listener move]) = moves more ++ [move] := moves_append _ _
    refine ⟨hgoes.running_eq_false h.running, ?_, ?_, ?_⟩
    · have hlook : ¬(move = .check true ∨ move = .recheck true) := fun hlook =>
        Bool.false_ne_true (h.running.symm.trans (hgoes.running_of_look hlook))
      rw [not_or] at hlook
      simp only [hmoves, List.mem_append, List.mem_singleton, not_or]
      exact ⟨⟨h.looks.1, Ne.symm hlook.1⟩, h.looks.2, Ne.symm hlook.2⟩
    · have hpending := hgoes.pending_eq h.running
      have hasked := h.asked
      rw [hmoves, Moves.asked_append, Moves.asked_singleton, List.length_append]
      omega
    · have hlt := hgoes.rank_lt h.running
      have hfew := h.few
      rw [hmoves, List.length_append, List.length_singleton]
      omega

/-- Where a listener is that got an answer when its flag was clear: it has thrown it away, or is
about to. -/
structure Discards (p : Poll) (s : Scene) (more : List Act) (last : Scene) : Prop where
  running : last.machine.running = false
  phase : last.machine.phase = .received p ∨ ∃ result, last.machine.phase = .ended result
  session : last.machine.session = s.machine.session
  handled : Moves.handled (moves more) = []
  published : Moves.published (moves more) = []

theorem Discards.step {p : Poll} (h : Discards p s more mid) (hstep : Step mid act next) :
    Discards p s (more ++ [act]) next := by
  cases hmove : act.move? with
  | none =>
    obtain ⟨hphase, hsession, hrunning⟩ := hstep.of_other hmove
    have hmoves : moves (more ++ [act]) = moves more := by
      rw [moves_append, moves_singleton, hmove, Option.toList_none, List.append_nil]
    exact ⟨hrunning h.running, hphase ▸ h.phase, hsession.trans h.session, hmoves ▸ h.handled,
      hmoves ▸ h.published⟩
  | some move =>
    obtain rfl := Act.move?_eq_some_iff.mp hmove
    rcases h.phase with hphase | ⟨result, hended⟩
    · obtain ⟨rfl, hnext⟩ := hstep.goes.of_received h.running hphase
      have hmoves : moves (more ++ [.listener (.recheck false)]) = moves more ++ [.recheck false] :=
        moves_append _ _
      refine ⟨?_, Or.inr ⟨.ok mid.machine.session.cursor.tick, ?_⟩, ?_, ?_, ?_⟩
      · rw [hnext]; exact h.running
      · rw [hnext]
      · rw [hnext]; exact h.session
      · rw [hmoves, Moves.handled_append, h.handled]; rfl
      · rw [hmoves, Moves.published_append, h.published]; rfl
    · exact absurd hended (hstep.goes.phase_ne_ended result)

end Scene

end Docstore
