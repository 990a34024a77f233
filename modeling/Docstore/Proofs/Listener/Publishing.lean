import Docstore.Proofs.Listener.Position
import Docstore.Proofs.Listener.Rehearsals

/-!
# What a listener publishes, and who gets it

A listener that has read where the log ends publishes the events of the batches
that it accepts, and nothing else (`KeepsUp`).  `Delivers` says what becomes of them
on the bus: they are published in turn, each is taken to the handlers that it was due
to when its publication began, each of these once, and to the receivers.  Handlers
may crash or not on each call, and others may use the bus as they like.

`keepsUp_and_delivers` has both, for every run, and says that there is one for all
answers, in which nobody disturbs the listener (`Undisturbed.exists_rounds`).
-/

namespace Docstore

/-- Events are published in turn: all but the current one are delivered. -/
theorem Machine.Reached.published_eq {moves : List Move} {m : Machine}
    (h : Machine.Reached moves m) :
    Moves.published moves = Moves.delivered moves ++ m.phase.current?.toList := by
  induction h with
  | new => rfl
  | told h running wake ih => exact ih
  | @moved moves m next move h hgoes ih =>
    have hquiet : move.published? = none → move.delivered? = none →
        next.phase.current? = m.phase.current? →
        Moves.published (moves ++ [move]) =
          Moves.delivered (moves ++ [move]) ++ next.phase.current?.toList := by
      intro hpublished hdelivered hcurrent
      simp [hpublished, hdelivered, hcurrent, ih]
    cases hgoes with
    | publish publication e rest d hphase hfirst =>
      rw [hphase, Phase.current?.eq_def] at ih
      simp [Move.published?, Move.delivered?, Phase.current?, ih]
    | delivered publication e d crashed hphase =>
      rw [hphase, Phase.current?.eq_def] at ih
      simp [Move.published?, Move.delivered?, Phase.current?, ih]
    | _ => exact hquiet rfl rfl (by simp only [Phase.current?, *])

namespace Scene

variable {s mid last next : Scene} {acts more : List Act}

/-! ### What the listener does -/

/-- Where a listener that began at `start` has come. -/
structure KeepsUp (start : Nat) (acts : List Act) (s : Scene) : Prop where
  /-- Tick and open transactions are those of a cursor that applies the accepted batches. -/
  cursor : s.machine.session.cursor = (follow start (Moves.handled (moves acts))).1
  /-- The events are those that come of these batches, in order, and some may still wait. -/
  events : (Moves.published (moves acts)).map Prod.snd ++ s.machine.phase.unpublished =
    (follow start (Moves.handled (moves acts))).2.flatMap Effect.events
  /-- Any other answer leaves tick and transactions as they are, and nothing is published. -/
  rejected : ∀ p next, Step s (.listener (.handle p)) next →
    (∀ last body es, p = .batch last body → readBatch body = .ok es →
      last ≤ s.machine.session.cursor.tick) →
    next.machine.session.cursor = s.machine.session.cursor ∧
      next.machine.phase = .waiting ∧ next.traffic = s.traffic
  /-- Every request asks from the tick to which the answers handled before it lead. -/
  requests : ∀ before position after, acts = before ++ .listener (.ask position) :: after →
    position = (follow start (Moves.handled (moves before))).1.tick
  forward : (Moves.asked (moves acts)).Pairwise (· ≤ ·)

/-- What becomes of the events that a listener publishes. -/
structure Delivers (acts : List Act) (s : Scene) : Prop where
  /-- They are published in turn: all but the current one are delivered. -/
  inTurn : Moves.published (moves acts) =
    Moves.delivered (moves acts) ++ s.machine.phase.current?.toList
  /-- Each is taken to the handlers of its collection and to those of all events. -/
  served : ∀ before publication e after,
    acts = before ++ .listener (.publish publication e) :: after →
    publication = Traffic.begun (history before) ∧
      Traffic.Serves publication (Traffic.due e.collection (history before)) (history acts)
  /-- Whoever listens to a collection gets what is sent for it, and that includes each event
  of the listener when it is delivered. -/
  received : ∀ before collection receiver after,
    acts = before ++ .bus (.subscribes collection receiver) :: after →
    .bus (.drops receiver) ∉ after →
    ∃ queue, s.traffic.bus.queues.lookup receiver = some queue ∧
      Traffic.taken receiver (history after) ++ queue =
        sent (Traffic.events (history acts)) collection after

/-- A listener that is neither starting nor failing to has read where the log ends. -/
theorem Run.started_mem (h : Run {} acts s) (hbegun : s.machine.phase.IsBegun) :
    ∃ start, .started (.ok start) ∈ moves acts := by
  have hstage := h.reached.stage
  generalize moves acts = behind at hstage
  cases hstage with
  | unbegun hphase => rw [hphase] at hbegun; exact absurd hbegun id
  | failing cause hphase => rw [hphase] at hbegun; exact absurd hbegun id
  | failed cause hphase => rw [hphase] at hbegun; exact absurd hbegun id
  | @begun m start rest hfollows => exact ⟨start, List.mem_cons_self⟩

theorem Run.starts_eq (h : Run {} acts s) {start : Nat}
    (hstart : .started (.ok start) ∈ moves acts) : Moves.starts (moves acts) = [start] := by
  obtain ⟨rest, hmoves, hfollows⟩ := h.reached.exists_follows hstart
  rw [hmoves]
  exact congrArg (start :: ·) hfollows.once

theorem Run.keepsUp (h : Run {} acts s) {start : Nat}
    (hstart : .listener (.started (.ok start)) ∈ acts) : KeepsUp start acts s := by
  obtain ⟨rest, hmoves, hfollows⟩ := h.reached.exists_follows (mem_moves_iff.mpr hstart)
  have hhandled : Moves.handled (moves acts) = Moves.handled rest := by rw [hmoves]; rfl
  have hpublished : Moves.published (moves acts) = Moves.published rest := by rw [hmoves]; rfl
  have hasked : Moves.asked (moves acts) = Moves.asked rest := by rw [hmoves]; rfl
  refine ⟨?_, ?_, fun p next hstep hrejected => ?_, fun before position after hacts => ?_, ?_⟩
  · rw [hhandled, hfollows.cursor]
  · rw [hhandled, hpublished, hfollows.events]
  · have hnone := Session.accepted?_eq_none_iff.mpr hrejected
    cases hstep with
    | quiet hmove hquiet =>
      cases Machine.step_eq_some_iff.mp hmove with
      | apply p session d hphase hhandle =>
        rw [Session.handle_eq_of_none hnone] at hhandle
        exact absurd (Prod.mk.inj hhandle).2 (by simp)
      | reject p session hphase hhandle =>
        rw [Session.handle_eq_of_none hnone] at hhandle
        obtain ⟨rfl, -⟩ := Prod.mk.inj hhandle
        exact ⟨rfl, rfl, rfl⟩
  · subst hacts
    obtain ⟨mid, next, hbefore, hstep, hafter⟩ := h.exists_step
    obtain ⟨hphase, hposition⟩ := hstep.goes.of_ask
    have hbegun : mid.machine.phase.IsBegun := by rw [hphase]; trivial
    obtain ⟨first, hfirst⟩ := hbefore.started_mem hbegun
    have hsame : first = start := by
      have hall := h.starts_eq (mem_moves_iff.mpr hstart)
      have hmem : first ∈ Moves.starts (moves (before ++ .listener (.ask position) :: after)) := by
        rw [moves_append, Moves.starts_append]
        exact List.mem_append_left _ (List.mem_filterMap.mpr ⟨_, hfirst, rfl⟩)
      rw [hall] at hmem
      exact List.mem_singleton.mp hmem
    subst hsame
    obtain ⟨rest', hmoves', hfollows'⟩ := hbefore.reached.exists_follows hfirst
    rw [hposition, hfollows'.cursor, hmoves']
    rfl
  · rw [hasked]
    exact hfollows.forward

/-! ### What the bus does with it -/

/-- What the listener hears to be delivered is the event of that publication. -/
theorem Run.event_of_delivered (h : Run {} acts s) {publication crashed : Nat} {e : ChangeEvent}
    (hmem : .listener (.delivered publication e crashed) ∈ acts) :
    (Traffic.events (history acts))[publication]? = some e := by
  obtain ⟨before, after, rfl⟩ := List.append_of_mem hmem
  obtain ⟨mid, next, hbefore, hstep, hafter⟩ := h.exists_step
  obtain ⟨d, hphase⟩ := hstep.goes.of_delivered
  have hcurrent : mid.machine.phase.current? = some (publication, e) := by rw [hphase]; rfl
  obtain ⟨q, hq, rfl, -⟩ := hbefore.owes publication e hcurrent
  have hevent := Traffic.getElem?_map_event hq
  rw [hbefore.traffic.events] at hevent
  rw [history_append, Traffic.events, List.filterMap_append]
  exact (List.getElem?_append_left (List.getElem?_eq_some_iff.mp hevent).1).trans hevent

/-- The acts that send an event are those that are moments which send one. -/
theorem filterMap_sent? {events : List ChangeEvent}
    (hown : ∀ publication e crashed, .listener (.delivered publication e crashed) ∈ acts →
      events[publication]? = some e) :
    (history acts).filterMap (Moment.sent? events) = acts.filterMap (Act.sent? events) := by
  rw [history, List.filterMap_filterMap]
  refine List.filterMap_congr fun act hact => ?_
  cases act with
  | listener move =>
    cases move with
    | delivered publication e crashed => exact hown publication e crashed hact
    | _ => rfl
  | _ => rfl

/-- What is sent from some point on is told by the moments from there on. -/
theorem Run.sent_eq (before after : List Act) (h : Run {} (before ++ after) s)
    (collection : String) :
    sent (Traffic.events (history (before ++ after))) collection after =
      ((history after).filterMap (Moment.sent? (Traffic.events (history (before ++ after))))).filter
        fun e => e.collection = collection := by
  rw [sent, filterMap_sent?]
  intro publication e crashed hmem
  exact h.event_of_delivered (List.mem_append_right _ hmem)

theorem mem_history_of_drops {receiver : Nat} (h : .drops receiver ∈ history acts) :
    .bus (.drops receiver) ∈ acts := by
  obtain ⟨act, hact, hmoment⟩ := List.mem_filterMap.mp h
  cases act with
  | bus m =>
    obtain rfl := Option.some.inj hmoment
    exact hact
  | listener move =>
    cases move <;> exact absurd hmoment (by simp [Act.moment?, Move.moment?])
  | _ => exact absurd hmoment (by simp [Act.moment?])

theorem Run.delivers (h : Run {} acts s) : Delivers acts s := by
  refine ⟨h.reached.published_eq, fun before publication e after hacts => ?_,
    fun before collection receiver after hacts hlive => ?_⟩
  · subst hacts
    obtain ⟨mid, next, hbefore, hstep, -⟩ := h.exists_step
    have hnumber : publication = Traffic.begun (history before) := by
      have hlength := hbefore.traffic.length_publications
      cases hstep with
      | quiet hmove hquiet => exact absurd hquiet (by simp [Move.moment?])
      | publish => exact hlength.trans (Nat.zero_add _)
    have hhistory : history (before ++ .listener (.publish publication e) :: after) =
        history before ++ .begins e :: history after := history_append _ _
    have htraffic := h.traffic
    rw [hhistory] at htraffic
    obtain ⟨q, -, hadvances⟩ := htraffic.exists_publication
    have hserves := hadvances.serves rfl rfl rfl
    rw [← hnumber] at hserves
    have hbefore' : ∀ m ∈ history before ++ [.begins e], m.isOf publication = false := by
      intro m hm
      rcases List.mem_append.mp hm with hm | hm
      · refine Bool.eq_false_iff.mpr fun hof => ?_
        have hlt := hbefore.traffic.lt_of_isOf hm hof
        rw [hbefore.traffic.length_publications, hnumber] at hlt
        exact absurd hlt (by simp)
      · rw [List.mem_singleton.mp hm]
        rfl
    rw [hhistory, List.append_cons]
    exact ⟨hnumber, hserves.of_later hbefore'⟩
  · subst hacts
    have hhistory : history (before ++ .bus (.subscribes collection receiver) :: after) =
        history before ++ .subscribes collection receiver :: history after := history_append _ _
    have htraffic := h.traffic
    rw [hhistory] at htraffic
    obtain ⟨queue, hqueue, hall⟩ :=
      htraffic.received fun hdrops => hlive (mem_history_of_drops hdrops)
    rw [← hhistory, List.append_cons] at hall
    rw [List.append_cons] at h
    rw [List.append_cons, Run.sent_eq _ _ h]
    exact ⟨queue, hqueue, hall⟩

/-- **Position of a listener, and exactly-once application.**  A listener that begins at
`start` can meet any sequence of answers, whatever happened on the bus before: then it
publishes, one after the other, the events of the batches among them that parse and end
after `start` and after every batch applied before.

At the end of every run, however others stop it and use the bus, its tick and open
transactions and the events it published are those of a cursor at `start` that applies
just these batches.  Any other answer changes nothing and publishes nothing.  Every
request asks from the tick to which the answers handled before it lead, and the
positions asked from never go back.  The events are published in turn, and each is taken
to every handler that it is due to, once, and to every receiver of its collection. -/
theorem keepsUp_and_delivers :
    (∀ (before : List Moment) (t : Traffic), Traffic.Run {} before t →
      ∀ (start : Nat) (polls : List Poll), ∃ acts s,
        Run {} (before.map .bus ++ .listener (.started (.ok start)) :: acts) s ∧
        Moves.handled (moves acts) = polls ∧ s.machine.phase = .checking ∧
        let events := (follow start polls).2.flatMap Effect.events
        history acts = Moment.ofPublications t.publications.length t.bus events ∧
          s.traffic.bus = t.bus.publishAll events) ∧
    ∀ (acts : List Act) (s : Scene) (start : Nat), Run {} acts s →
      .listener (.started (.ok start)) ∈ acts → KeepsUp start acts s ∧ Delivers acts s := by
  refine ⟨fun before t hbefore start polls => ?_,
    fun acts s start h hstart => ⟨h.keepsUp hstart, h.delivers⟩⟩
  have hothers : Run {} (before.map .bus) { traffic := t } := by
    refine run_map_bus {} 0 hbefore fun publication e hcurrent => ?_
    exact absurd hcurrent (by simp [Phase.current?])
  let begun : Scene :=
    { machine := { phase := .checking, session := { cursor := { tick := start } } }, traffic := t }
  have hstarted : Step { traffic := t } (.listener (.started (.ok start))) begun :=
    .quiet (Machine.Goes.start start rfl).step_eq rfl
  obtain ⟨acts, positions, events, s, hall, hphase⟩ :=
    Undisturbed.exists_rounds (s := begun) rfl rfl polls
  have hrun := hothers.append (.cons hstarted hall.run)
  refine ⟨acts, s, hrun, hall.handled, hphase, ?_⟩
  have hevents := (hrun.keepsUp (List.mem_append_right _ List.mem_cons_self)).events
  rw [hphase, moves_append, moves_map_bus] at hevents
  have hpublished : events = (follow start polls).2.flatMap Effect.events := by
    rw [← hall.published, ← hall.handled]
    exact (List.append_nil _).symm.trans hevents
  rw [← hpublished]
  exact ⟨hall.moments, hall.bus⟩

/-- Answers that are stale, failed or broken come between two batches of a transaction; a
handler crashes, and somebody listens to the collection. -/
theorem keepsUp_and_delivers_interrupted :
    let insert := "\x7b\"type\":2300,\"tid\":7,\"data\":\x7b\"_id\":\"a/1\"\x7d\x7d"
    let commit := "\x7b\"type\":2201,\"tid\":7\x7d"
    let polls : List Poll := [.batch 7 insert, .batch 7 commit, .failed .malformedJson,
      .batch 9 "x", .batch 8 commit]
    let e : ChangeEvent :=
      { collection := "a", document := .object [("_id", .string "a/1")], kind := .createOrUpdate
        tick := none }
    let h : Handler := .mk "h" [] true
    ∃ acts s, Run {} (.bus (.registers .all h) :: .bus (.subscribes "a" 0) ::
        .listener (.started (.ok 5)) :: acts) s ∧
      Moves.handled (moves acts) = polls ∧ s.machine.session.cursor.tick = 8 ∧
      (Moves.published (moves acts)).map Prod.snd = [e] ∧
      Traffic.called 0 (history acts) = [h] ∧ Traffic.crashes 0 (history acts) = 1 ∧
      ∃ queue, s.traffic.bus.queues.lookup 0 = some queue ∧
        Traffic.taken 0 (history acts) ++ queue = [e] := by
  intro insert commit polls e h
  obtain ⟨t, ht, hbus, hnone⟩ : ∃ t,
      Traffic.Run {} [.registers .all h, .subscribes "a" 0] t ∧
        t.bus.reached "a" = [h] ∧ t.publications.length = 0 :=
    ⟨_, .cons (.registers ..) (.single (.subscribes ..)), rfl, rfl⟩
  obtain ⟨acts, s, hrun, hhandled, hphase, hhistory, -⟩ :=
    keepsUp_and_delivers.1 _ t ht 5 polls
  obtain ⟨hkeeps, hdelivers⟩ := keepsUp_and_delivers.2 _ s 5 hrun (by simp)
  have hevents : (follow 5 polls).2.flatMap Effect.events = [e] := by decide +kernel
  have htick : (follow 5 polls).1.tick = 8 := by decide +kernel
  rw [hevents, hnone, Moment.ofPublications, hbus] at hhistory
  refine ⟨acts, s, hrun, hhandled, ?_, ?_, ?_, ?_, ?_⟩
  · rw [hkeeps.cursor]
    exact (congrArg (fun polls => (follow 5 polls).1.tick) hhandled).trans htick
  · have hpublished := hkeeps.events
    rw [hphase] at hpublished
    exact (List.append_nil _).symm.trans (hpublished.trans
      ((congrArg (fun polls => (follow 5 polls).2.flatMap Effect.events) hhandled).trans hevents))
  · rw [hhistory]; rfl
  · rw [hhistory]; rfl
  · have hlive : Act.bus (.drops 0) ∉ .listener (.started (.ok 5)) :: acts := by
      intro hmem
      have hdrops : Moment.drops 0 ∈ history acts :=
        List.mem_filterMap.mpr ⟨_, (List.mem_cons.mp hmem).resolve_left Act.noConfusion, rfl⟩
      rw [hhistory] at hdrops
      simp [Moment.ofPublication, Moment.ofCall, Moment.ofPublications, Handler.registers] at hdrops
    obtain ⟨queue, hqueue, hgot⟩ := hdelivers.received [_] "a" 0 _ rfl hlive
    have hsent := Run.sent_eq [.bus (.registers .all h), .bus (.subscribes "a" 0)] _ hrun "a"
    refine ⟨queue, hqueue, hgot.trans (hsent.trans ?_)⟩
    show ((history acts).filterMap (Moment.sent? (Traffic.events
      (.registers .all h :: .subscribes "a" 0 :: history acts)))).filter _ = [e]
    rw [hhistory]
    rfl

end Scene

end Docstore
