import Docstore.Listener.Rehearsal
import Docstore.Proofs.Listener.Scenes

/-!
# Rehearsals

`Undisturbed` describes the runs of a scene in which nobody else uses the bus and
every handler does what its `Handler` says, so that the bus goes through
`Bus.publishAll`.  Such a run can be made of any answers (`exists_rounds`).

A rehearsal is one.  It makes the moves of a listener one after the other and
publishes with `Bus.publish`, and each part of it has its run: a look and a request,
a stop, an answer, the events of a batch.  `Rehearsal.Shows` says that a rehearsal has
come where a run leads and that its record shows the positions asked from and the
events published; `Rehearsal.exists_run_perform` says that there is such a run for
every rehearsal.  So what holds of all runs holds of whatever a rehearsal shows.
-/

namespace Docstore

namespace Bus

def publishAll (b : Bus) (events : List ChangeEvent) : Bus :=
  events.foldl (fun b e => (b.publish e).bus) b

end Bus

/-- The moments of publications of these events on a bus, one after the other, that are not
disturbed; the first has the number. -/
def Moment.ofPublications (publication : Nat) (b : Bus) : List ChangeEvent → List Moment
  | [] => []
  | e :: es =>
      ofPublication publication e (b.reached e.collection) ++
        ofPublications (publication + 1) (b.publish e).bus es

theorem Moment.ofPublications_append (publication : Nat) (b : Bus) (as bs : List ChangeEvent) :
    ofPublications publication b (as ++ bs) =
      ofPublications publication b as ++
        ofPublications (publication + as.length) (b.publishAll as) bs := by
  induction as generalizing publication b with
  | nil => rfl
  | cons e as ih =>
    rw [List.cons_append, ofPublications, ofPublications, ih, List.append_assoc, List.length_cons,
      Nat.add_right_comm, Nat.add_assoc]
    rfl

theorem Moment.isBeginning_of_mem_ofCall {publication : Nat} {h : Handler} {m : Moment}
    (hm : m ∈ ofCall publication h) : m.isBeginning = false := by
  simp only [ofCall, List.mem_cons, List.mem_append, List.mem_map, List.not_mem_nil, or_false] at hm
  obtain rfl | ⟨r, -, rfl⟩ | rfl := hm <;> rfl

theorem Traffic.begun_ofPublications (publication : Nat) (b : Bus) (events : List ChangeEvent) :
    begun (Moment.ofPublications publication b events) = events.length := by
  induction events generalizing publication b with
  | nil => rfl
  | cons e es ih =>
    have hcalls : begun ((b.reached e.collection).flatMap (Moment.ofCall publication)) = 0 := by
      refine List.countP_eq_zero.mpr fun m hm => ?_
      obtain ⟨h, -, hm⟩ := List.mem_flatMap.mp hm
      simp [Moment.isBeginning_of_mem_ofCall hm]
    have hrest := ih (publication + 1) (b.publish e).bus
    rw [begun] at hcalls hrest ⊢
    rw [Moment.ofPublications, List.countP_append, hrest, Moment.ofPublication,
      List.countP_cons_of_pos rfl, List.countP_append, hcalls, List.length_cons]
    exact Nat.add_comm ..

namespace Machine

variable {m : Machine}

theorem advance_of_ended {result : Except Failure Nat} (h : m.phase = .ended result)
    (move : Move) : m.advance move = m := by
  rw [advance]
  cases hstep : m.step move with
  | none => rfl
  | some next => exact absurd h ((step_eq_some_iff.mp hstep).phase_ne_ended result)

theorem advance_publish {d : Delivery} {e : ChangeEvent} {rest : List ChangeEvent}
    (hphase : m.phase = .publishing d) (hfirst : d.unpublished = e :: rest)
    (publication crashed : Nat) :
    (m.advance (.publish publication e)).advance (.delivered publication e crashed) =
      { m with phase := .publishing { d with
        unpublished := rest
        crashed := d.crashed + crashed } } := by
  simp [advance, step, hphase, hfirst]

/-- A listener that looks at its flag sends a request, or it ends. -/
theorem request_eq_of_running (hphase : m.phase = .checking) (hrunning : m.running = true) :
    m.request = { m with
      phase := .fetching m.session.cursor.tick
      session := { m.session with
        metrics := { m.session.metrics with polls := m.session.metrics.polls + 1 } } } := by
  simp [request, advance, step, look, hphase, hrunning]

theorem request_eq_of_stopped (hphase : m.phase = .checking) (hstopped : m.running = false) :
    m.request = { m with phase := .ended (.ok m.session.cursor.tick) } := by
  simp [request, advance, step, look, hphase, hstopped]

theorem request_of_ended {result : Except Failure Nat} (h : m.phase = .ended result) :
    m.request = m := by
  rw [request, advance_of_ended h, advance_of_ended h]

/-- An answer is handled, or thrown away. -/
theorem take_eq_of_running {position : Nat} (hphase : m.phase = .fetching position)
    (hrunning : m.running = true) (p : Poll) :
    m.take p = { m with
      phase := ((m.session.handle p).2.map .publishing).getD .waiting
      session := (m.session.handle p).1 } := by
  simp [take, advance, step, look, hphase, hrunning]

theorem take_eq_of_stopped {position : Nat} (hphase : m.phase = .fetching position)
    (hstopped : m.running = false) (p : Poll) :
    m.take p = { m with phase := .ended (.ok m.session.cursor.tick) } := by
  simp [take, advance, step, look, hphase, hstopped]

theorem take_of_ended {result : Except Failure Nat} (h : m.phase = .ended result) (p : Poll) :
    m.take p = m := by
  rw [take, advance_of_ended h, advance_of_ended h, advance_of_ended h]

end Machine

namespace Scene

variable {s mid last next : Scene} {acts more : List Act}

/-! ### Runs that nobody disturbs -/

/-- A run in which requests ask from these positions, these answers are handled and these events
published, while the handlers do what they say and nobody else uses the bus. -/
structure Undisturbed (s : Scene) (acts : List Act) (positions : List Nat) (polls : List Poll)
    (events : List ChangeEvent) (last : Scene) : Prop where
  run : Run s acts last
  once : Moves.starts (moves acts) = []
  asked : Moves.asked (moves acts) = positions
  handled : Moves.handled (moves acts) = polls
  published : (Moves.published (moves acts)).map Prod.snd = events
  moments : history acts =
    Moment.ofPublications s.traffic.publications.length s.traffic.bus events
  bus : last.traffic.bus = s.traffic.bus.publishAll events

namespace Undisturbed

variable {positions positions' : List Nat} {polls polls' : List Poll}
  {events events' : List ChangeEvent}

theorem nil (s : Scene) : Undisturbed s [] [] [] [] s :=
  ⟨.nil s, rfl, rfl, rfl, rfl, rfl, rfl⟩

theorem length_publications (h : Undisturbed s acts positions polls events last) :
    last.traffic.publications.length = s.traffic.publications.length + events.length := by
  rw [h.run.traffic.length_publications, h.moments, Traffic.begun_ofPublications]

theorem append (h : Undisturbed s acts positions polls events mid)
    (h' : Undisturbed mid more positions' polls' events' last) :
    Undisturbed s (acts ++ more) (positions ++ positions') (polls ++ polls') (events ++ events')
      last where
  run := h.run.append h'.run
  once := by simp [h.once, h'.once]
  asked := by simp [h.asked, h'.asked]
  handled := by simp [h.handled, h'.handled]
  published := by simp [h.published, h'.published]
  moments := by
    rw [history_append, h.moments, h'.moments, h.bus, h.length_publications,
      Moment.ofPublications_append]
  bus := by rw [h'.bus, h.bus, Bus.publishAll, Bus.publishAll, Bus.publishAll, List.foldl_append]

theorem quiet {move : Move} {machine : Machine} (h : s.machine.Goes move machine)
    (hquiet : move.moment? = none) (honce : move.start? = none) :
    Undisturbed s [.listener move] move.asked?.toList move.handled?.toList []
      { s with machine } := by
  have hmoves : moves [.listener move] = [move] := rfl
  have hpublished : move.published? = none := by
    cases move with
    | publish publication e => exact absurd hquiet (by simp [Move.moment?])
    | _ => rfl
  refine ⟨.single (.quiet h.step_eq hquiet), ?_, ?_, ?_, ?_, ?_, rfl⟩
  · rw [hmoves, Moves.starts_singleton, honce, Option.toList_none]
  · rw [hmoves, Moves.asked_singleton]
  · rw [hmoves, Moves.handled_singleton]
  · rw [hmoves, Moves.published_singleton, hpublished]
    rfl
  · exact List.filterMap_cons_none hquiet

/-- One event: its publication begins, calls its handlers and is finished. -/
theorem exists_publish {d : Delivery} {e : ChangeEvent} {rest : List ChangeEvent}
    (hphase : s.machine.phase = .publishing d) (hfirst : d.unpublished = e :: rest) :
    ∃ acts last, Undisturbed s acts [] [] [e] last ∧ last.machine = { s.machine with
      phase := .publishing { d with
        unpublished := rest
        crashed := d.crashed + (s.traffic.bus.publish e).crashed } } := by
  obtain ⟨u, v, hcalls, hfinishes, hbus⟩ := Traffic.exists_run_called s.traffic e
  let n := s.traffic.publications.length
  let hs := s.traffic.bus.reached e.collection
  let begun : Machine :=
    { s.machine with phase := .delivering n e { d with unpublished := rest } }
  have hpublish : Step s (.listener (.publish n e)) { s with
      machine := begun
      traffic := { s.traffic with
        publications := s.traffic.publications ++ [{ event := e, waiting := hs }] } } :=
    .publish (Machine.Goes.publish n e rest d hphase hfirst).step_eq (.begins s.traffic e)
  have hothers := run_map_bus begun s.stopping hcalls (by simp [Moment.ofCall])
  have hdelivered : Step ⟨begun, s.stopping, u⟩
      (.listener (.delivered n e (s.traffic.bus.publish e).crashed)) _ :=
    .delivered (Machine.Goes.delivered n e _ _ rfl).step_eq hfinishes
  let calls : List Act := (hs.flatMap (Moment.ofCall n)).map .bus
  let finish : List Act := [.listener (.delivered n e (s.traffic.bus.publish e).crashed)]
  have hmoves : moves (.listener (.publish n e) :: (calls ++ finish)) =
      [.publish n e, .delivered n e (s.traffic.bus.publish e).crashed] := by
    show _ :: moves (calls ++ finish) = _
    rw [moves_append, moves_map_bus]
    rfl
  have hhistory : history (.listener (.publish n e) :: (calls ++ finish)) =
      Moment.ofPublications n s.traffic.bus [e] := by
    show _ :: history (calls ++ finish) = _
    rw [history_append, history_map_bus]
    exact (List.append_nil _).symm
  have hrun := Run.cons hpublish (hothers.append (.single hdelivered))
  refine ⟨_, _, ⟨hrun, ?_, ?_, ?_, ?_, hhistory, hbus⟩, rfl⟩
  · rw [hmoves]; rfl
  · rw [hmoves]; rfl
  · rw [hmoves]; rfl
  · rw [hmoves]; rfl

/-! ### The parts of a rehearsal -/

theorem stop (s : Scene) :
    Undisturbed s [.clear, .notify] [] [] [] { s with machine := s.machine.stop } :=
  ⟨.cons .clear (.single (.notify s.stopping rfl)), rfl, rfl, rfl, rfl, rfl, rfl⟩

theorem exists_stop_if (s : Scene) (b : Prop) [Decidable b] : ∃ acts,
    Undisturbed s acts [] [] [] { s with machine := if b then s.machine.stop else s.machine } := by
  by_cases hb : b
  · rw [if_pos hb]
    exact ⟨_, stop s⟩
  · rw [if_neg hb]
    exact ⟨_, nil s⟩

/-- A look at the flag, and a request if it is set. -/
theorem exists_request (hphase : s.machine.phase = .checking) :
    ∃ acts, Undisturbed s acts s.machine.request.asked?.toList [] []
      { s with machine := s.machine.request } := by
  cases hrunning : s.machine.running with
  | true =>
    let looked : Scene := { s with machine := { s.machine with phase := .asking } }
    have hlook : Undisturbed s [.listener (.check true)] [] [] [] looked :=
      quiet (.goOn hphase hrunning) rfl rfl
    have hask : Undisturbed looked [.listener (.ask s.machine.session.cursor.tick)]
        [s.machine.session.cursor.tick] [] [] _ := quiet (.ask rfl) rfl rfl
    rw [Machine.request_eq_of_running hphase hrunning]
    exact ⟨_, hlook.append hask⟩
  | false =>
    rw [Machine.request_eq_of_stopped hphase hrunning]
    exact ⟨_, quiet (.leave hphase hrunning) rfl rfl⟩

/-- An answer. -/
theorem exists_take {position : Nat} (hphase : s.machine.phase = .fetching position) (p : Poll) :
    ∃ acts, Undisturbed s acts [] (if s.machine.running then [p] else []) []
      { s with machine := s.machine.take p } := by
  let answered : Scene := { s with machine := { s.machine with phase := .received p } }
  have hanswer : Undisturbed s [.listener (.answer p)] [] [] [] answered :=
    quiet (.answer position p hphase) rfl rfl
  cases hrunning : s.machine.running with
  | true =>
    let taken : Scene := { s with machine := { s.machine with phase := .handling p } }
    have hrecheck : Undisturbed answered [.listener (.recheck true)] [] [] [] taken :=
      quiet (.take p rfl hrunning) rfl rfl
    rw [Machine.take_eq_of_running hphase hrunning]
    obtain ⟨session, delivery?, hhandle⟩ : ∃ session delivery?,
        s.machine.session.handle p = (session, delivery?) := ⟨_, _, rfl⟩
    rw [hhandle]
    cases delivery? with
    | some d =>
      have happly : Undisturbed taken [.listener (.handle p)] [] [p] [] _ :=
        quiet (.apply p session d rfl hhandle) rfl rfl
      exact ⟨_, hanswer.append (hrecheck.append happly)⟩
    | none =>
      have hreject : Undisturbed taken [.listener (.handle p)] [] [p] [] _ :=
        quiet (.reject p session rfl hhandle) rfl rfl
      exact ⟨_, hanswer.append (hrecheck.append hreject)⟩
  | false =>
    have hrecheck : Undisturbed answered [.listener (.recheck false)] [] [] [] _ :=
      quiet (.throwAway p rfl hrunning) rfl rfl
    rw [Machine.take_eq_of_stopped hphase hrunning]
    exact ⟨_, hanswer.append hrecheck⟩

/-- The events of a batch, one after the other, and the count of it. -/
theorem exists_publishAll {d : Delivery} (hphase : s.machine.phase = .publishing d) :
    ∃ acts last, Undisturbed s acts [] [] d.unpublished last ∧
      (last.machine, last.traffic.bus) = s.machine.publishAll s.traffic.bus
        s.traffic.publications.length d.unpublished ∧
      last.machine.phase = .checking ∧ last.machine.running = s.machine.running := by
  obtain ⟨events, tally, crashed⟩ := d
  induction events generalizing s crashed with
  | nil =>
    have hsettle := Machine.Goes.settle _ hphase rfl
    refine ⟨_, _, quiet hsettle rfl rfl, ?_, rfl, rfl⟩
    rw [Machine.publishAll, Machine.advance, hsettle.step_eq]
    rfl
  | cons e rest ih =>
    obtain ⟨acts, mid, hone, hmid⟩ := exists_publish hphase rfl
    obtain ⟨more, last, hrest, hlast, hchecking, hrunning⟩ := ih _ (congrArg Machine.phase hmid)
    have hbus : mid.traffic.bus = (s.traffic.bus.publish e).bus := hone.bus
    refine ⟨acts ++ more, last, hone.append hrest, ?_, hchecking, ?_⟩
    · rw [hlast, hone.length_publications, hbus, hmid, Machine.publishAll,
        Machine.advance_publish hphase rfl]
      rfl
    · rw [hrunning, hmid]

/-! ### Whole rounds -/

/-- One answer of a listener that goes on: it is asked for and handled, and what comes of it
is published. -/
theorem exists_round (hphase : s.machine.phase = .checking) (hrunning : s.machine.running = true)
    (p : Poll) : ∃ acts positions events last, Undisturbed s acts positions [p] events last ∧
      last.machine.phase = .checking ∧ last.machine.running = true := by
  let asked : Scene := { s with machine := s.machine.request }
  obtain ⟨hfetching, hasking⟩ :
      asked.machine.phase = .fetching s.machine.session.cursor.tick ∧
        asked.machine.running = true := by
    simp only [asked, Machine.request_eq_of_running hphase hrunning, hrunning, and_self]
  obtain ⟨as, hrequest⟩ := exists_request hphase
  obtain ⟨bs, htake⟩ := exists_take hfetching p
  rw [if_pos hasking] at htake
  have hbefore : Undisturbed s (as ++ bs) _ [p] [] _ := hrequest.append htake
  obtain ⟨hnext, hgoing⟩ : (asked.machine.take p).phase =
      ((asked.machine.session.handle p).2.map .publishing).getD .waiting ∧
        (asked.machine.take p).running = true := by
    simp only [Machine.take_eq_of_running hfetching hasking, hasking, and_self]
  cases hdelivery : (asked.machine.session.handle p).2 with
  | none =>
    rw [hdelivery] at hnext
    have helapse := quiet (s := { asked with machine := asked.machine.take p })
      (.elapse hnext) rfl rfl
    exact ⟨_, _, _, _, hbefore.append helapse, rfl, hgoing⟩
  | some d =>
    rw [hdelivery] at hnext
    obtain ⟨more, last, hall, -, hchecking, hkept⟩ :=
      exists_publishAll (s := { asked with machine := asked.machine.take p }) hnext
    exact ⟨_, _, _, last, hbefore.append hall, hchecking, hkept.trans hgoing⟩

/-- Any answers, one after the other. -/
theorem exists_rounds (hphase : s.machine.phase = .checking) (hrunning : s.machine.running = true)
    (polls : List Poll) : ∃ acts positions events last,
      Undisturbed s acts positions polls events last ∧ last.machine.phase = .checking := by
  induction polls generalizing s with
  | nil => exact ⟨[], [], [], s, .nil s, hphase⟩
  | cons p polls ih =>
    obtain ⟨acts, positions, events, mid, hone, hmid, hgoing⟩ := exists_round hphase hrunning p
    obtain ⟨more, later, others, last, hrest, hlast⟩ := ih hmid hgoing
    exact ⟨_, _, _, last, hone.append hrest, hlast⟩

end Undisturbed

end Scene

/-! ### Rehearsals -/

/-- The phases in which a listener is between two requests, or has ended. -/
def Phase.IsSettled : Phase → Prop
  | .checking | .waiting | .ended _ => True
  | _ => False

namespace Machine

variable {m : Machine}

theorem phase_request (hphase : m.phase = .checking) :
    (∃ position, m.request.phase = .fetching position) ∨
      ∃ result, m.request.phase = .ended result := by
  cases hrunning : m.running with
  | true => exact Or.inl ⟨_, congrArg Machine.phase (request_eq_of_running hphase hrunning)⟩
  | false => exact Or.inr ⟨_, congrArg Machine.phase (request_eq_of_stopped hphase hrunning)⟩

theorem phase_take {position : Nat} (hphase : m.phase = .fetching position) (p : Poll) :
    (∃ d, (m.take p).phase = .publishing d) ∨ (m.take p).phase.IsSettled := by
  cases hrunning : m.running with
  | true =>
    rw [take_eq_of_running hphase hrunning]
    cases (m.session.handle p).2 with
    | some d => exact Or.inl ⟨d, rfl⟩
    | none => exact Or.inr trivial
  | false =>
    rw [take_eq_of_stopped hphase hrunning]
    exact Or.inr trivial

/-- Without a batch there is nothing to publish. -/
theorem publishAll_of_settled (h : m.phase.IsSettled) (b : Bus) (publication : Nat) :
    m.phase.unpublished = [] ∧ m.publishAll b publication [] = (m, b) := by
  cases hphase : m.phase with
  | checking => exact ⟨rfl, by simp [publishAll, advance, step, hphase]⟩
  | waiting => exact ⟨rfl, by simp [publishAll, advance, step, hphase]⟩
  | ended result => exact ⟨rfl, by rw [publishAll, advance_of_ended hphase]⟩
  | _ => rw [hphase] at h; exact absurd h id

end Machine

namespace Scene.Undisturbed

variable {s : Scene}

theorem exists_take_of_request (hphase : (∃ position, s.machine.phase = .fetching position) ∨
      ∃ result, s.machine.phase = .ended result) (p : Poll) :
    ∃ acts polls, Undisturbed s acts [] polls [] { s with machine := s.machine.take p } ∧
      ((∃ d, (s.machine.take p).phase = .publishing d) ∨
        (s.machine.take p).phase.IsSettled) := by
  obtain ⟨position, hfetching⟩ | ⟨result, hended⟩ := hphase
  · obtain ⟨acts, htake⟩ := exists_take hfetching p
    exact ⟨acts, _, htake, Machine.phase_take hfetching p⟩
  · rw [Machine.take_of_ended hended, hended]
    exact ⟨[], [], nil s, Or.inr trivial⟩

theorem exists_publishAll_of_take (hphase : (∃ d, s.machine.phase = .publishing d) ∨
      s.machine.phase.IsSettled) :
    ∃ acts last, Undisturbed s acts [] [] s.machine.phase.unpublished last ∧
      (last.machine, last.traffic.bus) = s.machine.publishAll s.traffic.bus
        s.traffic.publications.length s.machine.phase.unpublished ∧
      last.machine.phase.IsSettled := by
  obtain ⟨d, hpublishing⟩ | hsettled := hphase
  · obtain ⟨acts, last, hall, hlast, hchecking, -⟩ := exists_publishAll hpublishing
    rw [hpublishing]
    exact ⟨acts, last, hall, hlast, by rw [hchecking]; trivial⟩
  · obtain ⟨hnone, hsame⟩ := Machine.publishAll_of_settled hsettled s.traffic.bus
      s.traffic.publications.length
    rw [hnone, hsame]
    exact ⟨[], s, nil s, rfl, hsettled⟩

/-- A request, its answer and what comes of it; the listener may be stopped before the answer
arrives, or in the end. -/
theorem exists_cue (hphase : s.machine.phase = .checking) (early late : Prop) [Decidable early]
    [Decidable late] (p : Poll) :
    let asked := s.machine.request
    let answered := (if early then asked.stop else asked).take p
    let done := answered.publishAll s.traffic.bus s.traffic.publications.length
      answered.phase.unpublished
    ∃ acts polls last,
      Undisturbed s acts asked.asked?.toList polls answered.phase.unpublished last ∧
      last.machine = (if late then done.1.stop else done.1) ∧ last.traffic.bus = done.2 ∧
      last.machine.phase.IsSettled := by
  intro asked answered done
  obtain ⟨as, hrequest⟩ := exists_request hphase
  obtain ⟨bs, hstop⟩ := exists_stop_if { s with machine := asked } early
  have hsame : (if early then asked.stop else asked).phase = asked.phase := by
    split <;> rfl
  have hrequested := Machine.phase_request hphase
  obtain ⟨cs, polls, htake, hanswered⟩ := exists_take_of_request
    (s := { s with machine := if early then asked.stop else asked }) (hsame ▸ hrequested) p
  obtain ⟨ds, mid, hall, hmid, hsettled⟩ :=
    exists_publishAll_of_take (s := { s with machine := answered }) hanswered
  obtain ⟨es, hlate⟩ := exists_stop_if mid late
  have hdone : mid.machine = done.1 ∧ mid.traffic.bus = done.2 := Prod.mk.inj hmid
  have hrun := hrequest.append (hstop.append (htake.append (hall.append hlate)))
  simp only [List.append_nil, List.nil_append] at hrun
  refine ⟨_, polls, _, hrun, ?_, hdone.2, ?_⟩
  · rw [← hdone.1]
  · show (if late then mid.machine.stop else mid.machine).phase.IsSettled
    split
    · exact hsettled
    · exact hsettled

/-- A listener that was stopped leaves when it looks at its flag, also from its wait. -/
theorem exists_leave (hsettled : s.machine.phase.IsSettled) (hstopped : s.machine.running = false)
    (hwake : s.machine.wake = true) :
    ∃ acts, Undisturbed s acts [] [] []
      { s with machine := (s.machine.advance .woken).request } := by
  cases hphase : s.machine.phase with
  | checking =>
    have hstay : s.machine.advance .woken = s.machine := by
      simp [Machine.advance, Machine.step, hphase]
    rw [hstay, Machine.request_eq_of_stopped hphase hstopped]
    exact ⟨_, quiet (.leave hphase hstopped) rfl rfl⟩
  | waiting =>
    let woken : Machine := { s.machine with phase := .checking, wake := false }
    have hwoken : s.machine.advance .woken = woken := by
      rw [Machine.advance, (Machine.Goes.wake hphase hwake).step_eq]
      rfl
    have hwake := quiet (s := s) (.wake hphase hwake) rfl rfl
    have hleave := quiet (s := { s with machine := woken }) (.leave rfl hstopped) rfl rfl
    rw [hwoken, Machine.request_eq_of_stopped (m := woken) rfl hstopped]
    exact ⟨_, hwake.append hleave⟩
  | ended result =>
    rw [Machine.advance_of_ended hphase, Machine.request_of_ended hphase]
    exact ⟨[], nil s⟩
  | _ => rw [hphase] at hsettled; exact absurd hsettled id

end Scene.Undisturbed

namespace Rehearsal

open Scene

variable {r r' : Rehearsal} {first s last : Scene} {acts more : List Act}

/-- The rehearsal has come where these acts lead, and has on record what they show. -/
structure Shows (r : Rehearsal) (first : Scene) (acts : List Act) (s : Scene) : Prop where
  machine : s.machine = r.machine
  bus : s.traffic.bus = r.bus
  undisturbed : ∃ polls, Undisturbed first acts (r.requests.map RequestMade.tick) polls
    (r.events.map Prod.fst) s

theorem Shows.append (h : r.Shows first acts s) {positions : List Nat} {polls : List Poll}
    {events : List ChangeEvent} (hmore : Undisturbed s more positions polls events last)
    (hmachine : last.machine = r'.machine) (hbus : last.traffic.bus = r'.bus)
    (hrequests : r'.requests.map RequestMade.tick = r.requests.map RequestMade.tick ++ positions)
    (hevents : r'.events.map Prod.fst = r.events.map Prod.fst ++ events) :
    r'.Shows first (acts ++ more) last := by
  obtain ⟨handled, hall⟩ := h.undisturbed
  refine ⟨hmachine, hbus, handled ++ polls, ?_⟩
  rw [hrequests, hevents]
  exact hall.append hmore

/-- Time goes on, and the machine does, when nothing is asked for and nothing published. -/
theorem Shows.goOn (h : r.Shows first acts s) {polls : List Poll}
    (hmore : Undisturbed s more [] polls [] last) (time : Nat) :
    ({ r with machine := last.machine, time } : Rehearsal).Shows first (acts ++ more) last :=
  h.append hmore rfl (hmore.bus.trans h.bus) (List.append_nil _).symm (List.append_nil _).symm

theorem request_eq (pace : Pace) (r : Rehearsal) (cue : Cue) :
    let tie := cue.stop && pace.isDue cue.delay
    let late := tie || pace.isLate cue.delay
    let asked := r.machine.request
    let answered := (if cue.stop && !late then asked.stop else asked).take
      (if late then .failed (timedOut pace.timeout) else cue.poll)
    let done := answered.publishAll r.bus r.events.length answered.phase.unpublished
    let requests := r.requests ++ (asked.asked?.map fun tick => ⟨tick, r.time⟩).toList
    r.request pace cue =
      { machine := if tie then done.1.stop else done.1
        bus := done.2
        time := r.time + pace.duration cue.delay
        requests
        events := r.events ++ answered.phase.unpublished.map fun e => (e, requests.length) } := rfl

/-- A round of a rehearsal is a run. -/
theorem Shows.request (h : r.Shows first acts s) (hfirst : first.traffic.publications = [])
    (hphase : r.machine.phase = .checking) (pace : Pace) (cue : Cue) :
    ∃ more last, (r.request pace cue).Shows first (acts ++ more) last ∧
      (r.request pace cue).machine.phase.IsSettled := by
  have hnumber : s.traffic.publications.length = r.events.length := by
    obtain ⟨polls, hall⟩ := h.undisturbed
    rw [hall.length_publications, hfirst, List.length_map]
    exact Nat.zero_add _
  let tie := cue.stop && pace.isDue cue.delay
  let late := tie || pace.isLate cue.delay
  obtain ⟨more, polls, last, hrun, hmachine, hbus, hsettled⟩ :=
    Undisturbed.exists_cue (s := s) (h.machine ▸ hphase) (cue.stop && !late) tie
      (if late then .failed (timedOut pace.timeout) else cue.poll)
  rw [h.machine] at hrun hmachine hbus
  rw [h.bus, hnumber] at hmachine hbus
  have hrequest := request_eq pace r cue
  generalize r.request pace cue = next at hrequest ⊢
  subst hrequest
  refine ⟨more, last, h.append hrun hmachine hbus ?_ ?_, hmachine ▸ hsettled⟩
  · rw [List.map_append]
    cases r.machine.request.asked? <;> rfl
  · rw [List.map_append, List.map_map]
    exact congrArg (r.events.map Prod.fst ++ ·) (List.map_id _)

/-- **What is left of a rehearsal is a run**, up to the end of the listener. -/
theorem Shows.play {before : List Act} (h : r.Shows first acts s) (hbefore : Run {} before first)
    (hfirst : first.traffic.publications = []) (hphase : r.machine.phase = .checking)
    (pace : Pace) (cues : List Cue) :
    ∃ more last, (r.play pace cues).Shows first (acts ++ more) last := by
  induction cues generalizing r acts s with
  | nil =>
    obtain ⟨more, mid, hmid, hsettled⟩ := h.request hfirst hphase pace { poll := .idle }
    rw [Rehearsal.play]
    generalize r.request pace { poll := .idle } = next at hmid hsettled ⊢
    rw [← hmid.machine] at hsettled
    obtain ⟨as, hleave⟩ := Undisturbed.exists_leave
      (s := { mid with machine := mid.machine.stop }) hsettled rfl rfl
    have hend := (Undisturbed.stop mid).append hleave
    rw [hmid.machine] at hend
    have hlast := hmid.goOn hend next.time
    rw [List.append_assoc] at hlast
    exact ⟨_, _, hlast⟩
  | cons cue cues ih =>
    obtain ⟨more, mid, hmid, hsettled⟩ := h.request hfirst hphase pace cue
    simp only [Rehearsal.play]
    generalize r.request pace cue = next at hmid hsettled ⊢
    split
    · next hchecking =>
      obtain ⟨rest, last, hlast⟩ := ih hmid hchecking
      exact ⟨_, last, List.append_assoc acts .. ▸ hlast⟩
    · next hwaiting =>
      split
      · next hwake =>
        have hrun := hbefore.append (hmid.undisturbed.choose_spec.run)
        have hstopped := hrun.running_eq_false_of_wake (hmid.machine ▸ hwake)
        rw [← hmid.machine] at hsettled hwake
        obtain ⟨as, hleave⟩ := Undisturbed.exists_leave hsettled hstopped hwake
        rw [hmid.machine] at hleave
        have hlast := hmid.goOn hleave next.time
        rw [List.append_assoc] at hlast
        exact ⟨_, _, hlast⟩
      · next hnot =>
        rw [← hmid.machine] at hwaiting
        have helapse := Machine.Goes.elapse hwaiting
        have hwaited := hmid.goOn (Undisturbed.quiet helapse rfl rfl) (next.time + pace.wait)
        obtain ⟨rest, last, hlast⟩ := ih hwaited rfl
        rw [List.append_assoc, List.append_assoc] at hlast
        rw [← hmid.machine, Machine.advance, helapse.step_eq]
        exact ⟨_, last, hlast⟩
    · exact ⟨more, mid, hmid⟩

/-- A failure is reported while others may use the bus: its error handlers register what they
register. -/
theorem exists_run_publishError (machine : Machine) (stopping : Nat) (t : Traffic) (f : Failure)
    (hphase : machine.phase.current? = none) :
    ∃ (ms : List Moment) (u : Traffic),
      Scene.Run ⟨machine, stopping, t⟩ (ms.map .bus) ⟨machine, stopping, u⟩ ∧
        u.bus = (t.bus.publishError f).bus := by
  obtain ⟨u, hregisters, hbus, -⟩ :=
    t.exists_run_registers (t.bus.errorHandlers.flatMap Handler.registers)
  refine ⟨_, u, run_map_bus machine stopping hregisters fun publication e hcurrent => ?_, ?_⟩
  · exact absurd (hphase.symm.trans hcurrent) (by simp)
  · exact hbus.trans List.foldl_flatMap

/-- **A rehearsal is a run** of a scene in which nobody else uses the bus: it ends with the same
machine and the same bus, and its record shows the positions asked from and the events
published. -/
theorem exists_run_perform {before : List Moment} {t : Traffic}
    (hbefore : Traffic.Run {} before t) (hnone : t.publications = []) (pace : Pace)
    (start : Except Failure Nat) (delay : Nat) (cues : List Cue) :
    let r := perform pace t.bus start delay cues
    ∃ acts s, Run {} (before.map .bus ++ acts) s ∧ s.machine = r.machine ∧
      s.traffic.bus = r.bus ∧ Moves.asked (moves acts) = r.requests.map RequestMade.tick ∧
      (Moves.published (moves acts)).map Prod.snd = r.events.map Prod.fst := by
  have hothers : Run {} (before.map .bus) { traffic := t } := by
    refine run_map_bus {} 0 hbefore fun publication e hcurrent => ?_
    exact absurd hcurrent (by simp [Phase.current?])
  dsimp only [perform]
  generalize (if pace.isLate delay then .error (timedOut pace.timeout) else start) = position
  cases position with
  | error f =>
    let failing : Machine := { phase := .reporting (Machine.startupFailure f), running := false }
    have hfailed : Step { traffic := t } (.listener (.started (.error f))) ⟨failing, 0, t⟩ :=
      .quiet (Machine.Goes.failToStart f rfl).step_eq rfl
    obtain ⟨ms, u, hheard, hbus⟩ :=
      exists_run_publishError failing 0 t (Machine.startupFailure f) rfl
    have hreported : Step ⟨failing, 0, u⟩ (.listener .reported) _ :=
      .quiet (Machine.Goes.report _ rfl).step_eq rfl
    have hmoves :
        moves (.listener (.started (.error f)) :: (ms.map .bus ++ [.listener .reported])) =
          [.started (.error f), .reported] := by
      show _ :: moves (ms.map .bus ++ [.listener .reported]) = _
      rw [moves_append, moves_map_bus]
      rfl
    refine ⟨_, _, hothers.append (.cons hfailed (hheard.append (.single hreported))), rfl, hbus, ?_⟩
    rw [hmoves]
    exact ⟨rfl, rfl⟩
  | ok tick =>
    let begun : Scene :=
      { machine := { phase := .checking, session := { cursor := { tick } } }, traffic := t }
    have hstarted : Step { traffic := t } (.listener (.started (.ok tick))) begun :=
      .quiet (Machine.Goes.start tick rfl).step_eq rfl
    let r : Rehearsal := { machine := begun.machine, bus := t.bus, time := pace.duration delay }
    have hshows : r.Shows begun [] begun := ⟨rfl, rfl, [], .nil begun⟩
    obtain ⟨more, last, hlast⟩ :=
      hshows.play (hothers.append (.single hstarted)) hnone rfl pace cues
    obtain ⟨polls, hall⟩ := hlast.undisturbed
    exact ⟨_, last, hothers.append (.cons hstarted hall.run), hlast.machine, hlast.bus, hall.asked,
      hall.published⟩

end Rehearsal

end Docstore
