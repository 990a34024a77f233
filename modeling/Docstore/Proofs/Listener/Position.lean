import Docstore.Proofs.Listener.Run
import Docstore.Proofs.Log.Batches
import Mathlib.Data.List.Induction

/-!
# What a listener has applied, and where it asks from

Answers come in any order: nothing new, failures, batches that do not parse,
batches that end at a position reached before, and batches to apply.
`accepted` picks the last kind out of a list of answers, knowing only the start
and where the batches it picked end, and `follow` applies them to a cursor that
starts there.  A listener is, at every point of every run, where `follow` is with
the answers that it has handled (`Machine.Follows`).

That the listener compares with its tick alone is `Cursor.Reaches`: the tick of a
cursor that follows is the greatest of the start and the ends of the batches
applied so far.
-/

namespace Docstore

/-- The batches among the answers that are to be applied: those that parse and
end after every position reached so far.  Their ends are then reached too. -/
def accepted (reached : List Nat) : List Poll → List (Nat × List LogEntry)
  | [] => []
  | .batch last body :: rest =>
      match readBatch body with
      | .ok entries =>
          if ∀ position ∈ reached, position < last then
            (last, entries) :: accepted (reached ++ [last]) rest
          else accepted reached rest
      | .error _ => accepted reached rest
  | .idle :: rest => accepted reached rest
  | .failed _ :: rest => accepted reached rest

/-- A cursor that starts at a position and takes in the accepted batches among
these answers, and what comes of each batch. -/
def follow (start : Nat) (polls : List Poll) : Cursor × List Effect :=
  ({ tick := start } : Cursor).applyAll (accepted [start] polls)

/-- The position where the last of these batches ends, or the start when there is none. -/
def lastPosition (start : Nat) (batches : List (Nat × List LogEntry)) : Nat :=
  (batches.getLast?.map Prod.fst).getD start

theorem accepted_append (reached : List Nat) (ps qs : List Poll) :
    accepted reached (ps ++ qs) =
      accepted reached ps ++ accepted (reached ++ (accepted reached ps).map Prod.fst) qs := by
  induction ps generalizing reached with
  | nil => rw [List.nil_append, accepted, List.map_nil, List.append_nil, List.nil_append]
  | cons p ps ih =>
    cases p with
    | idle => exact ih reached
    | failed f => exact ih reached
    | batch last body =>
      simp only [List.cons_append, accepted]
      split
      · split
        · rw [ih, List.cons_append, List.map_cons, List.append_assoc, List.singleton_append]
        · exact ih reached
      · exact ih reached

namespace Cursor

/-- The cursor stands at the greatest of these positions. -/
def Reaches (c : Cursor) (reached : List Nat) : Prop :=
  c.tick ∈ reached ∧ ∀ position ∈ reached, position ≤ c.tick

theorem Reaches.lt_iff {c : Cursor} {reached : List Nat} (h : c.Reaches reached) (last : Nat) :
    (∀ position ∈ reached, position < last) ↔ c.tick < last :=
  ⟨fun hall => hall c.tick h.1,
    fun hlt position hp => Nat.lt_of_le_of_lt (h.2 position hp) hlt⟩

theorem Reaches.apply {c : Cursor} {reached : List Nat} (h : c.Reaches reached) {last : Nat}
    (hlast : c.tick < last) (es : List LogEntry) :
    (c.apply last es).1.Reaches (reached ++ [last]) := by
  have htick : (c.apply last es).1.tick = last := by
    rw [tick_apply, Nat.max_eq_right (Nat.le_of_lt hlast)]
  refine ⟨?_, fun position hp => ?_⟩
  · rw [htick]
    exact List.mem_append_right _ (List.mem_singleton.mpr rfl)
  · rw [htick]
    rcases List.mem_append.mp hp with hp | hp
    · exact Nat.le_of_lt (Nat.lt_of_le_of_lt (h.2 position hp) hlast)
    · exact Nat.le_of_eq (List.mem_singleton.mp hp)

end Cursor

/-! ### One answer -/

namespace Session

theorem accepted?_eq_some_iff {tick last : Nat} {p : Poll} {es : List LogEntry} :
    accepted? tick p = some (last, es) ↔
      ∃ body, p = .batch last body ∧ tick < last ∧ readBatch body = .ok es := by
  constructor
  · intro h
    cases p with
    | idle => exact absurd h (by simp [accepted?])
    | failed f => exact absurd h (by simp [accepted?])
    | batch end_ body =>
      rw [accepted?] at h
      split at h
      · exact absurd h (by simp)
      · next hlt =>
        split at h
        · next entries hread =>
          obtain ⟨rfl, rfl⟩ := Prod.mk.inj (Option.some.inj h)
          exact ⟨body, rfl, Nat.lt_of_not_le hlt, hread⟩
        · exact absurd h (by simp)
  · rintro ⟨body, rfl, hlt, hread⟩
    rw [accepted?, if_neg (Nat.not_le_of_lt hlt), hread]

theorem accepted?_eq_none_iff {tick : Nat} {p : Poll} :
    accepted? tick p = none ↔
      ∀ last body es, p = .batch last body → readBatch body = .ok es → last ≤ tick := by
  constructor
  · intro h last body es hp hread
    refine Nat.le_of_not_lt fun hlt => ?_
    rw [accepted?_eq_some_iff.mpr ⟨body, hp, hlt, hread⟩] at h
    exact absurd h (by simp)
  · intro h
    cases hsome : accepted? tick p with
    | none => rfl
    | some b =>
      obtain ⟨body, hp, hlt, hread⟩ := accepted?_eq_some_iff.mp hsome
      exact absurd (h _ body _ hp hread) (Nat.not_le_of_lt hlt)

/-- **An answer that is not applied** is counted, and that is all. -/
theorem handle_eq_of_none {s : Session} {p : Poll} (h : accepted? s.cursor.tick p = none) :
    s.handle p = ({ s with
      metrics :=
        if isStale s.cursor.tick p then { s.metrics with idle := s.metrics.idle + 1 }
        else { s.metrics with failed := s.metrics.failed + 1 } }, none) := by
  rw [handle, h]

theorem handle_eq_of_some {s : Session} {p : Poll} {last : Nat} {es : List LogEntry}
    (h : accepted? s.cursor.tick p = some (last, es)) :
    s.handle p = ({ s with cursor := (s.cursor.apply last es).1 }, some
      { unpublished := (s.cursor.apply last es).2.events
        tally := (s.cursor.apply last es).2.tally }) := by
  rw [handle, h]

theorem accepted?_of_handle_eq_none {s session : Session} {p : Poll}
    (h : s.handle p = (session, none)) : accepted? s.cursor.tick p = none := by
  cases hsome : accepted? s.cursor.tick p with
  | none => rfl
  | some b =>
    rw [handle_eq_of_some hsome] at h
    exact absurd (Prod.mk.inj h).2 (by simp)

theorem exists_accepted?_of_handle_eq_some {s session : Session} {p : Poll} {d : Delivery}
    (h : s.handle p = (session, some d)) : ∃ last es, accepted? s.cursor.tick p = some (last, es) ∧
      session = { s with cursor := (s.cursor.apply last es).1 } ∧
      d = { unpublished := (s.cursor.apply last es).2.events
            tally := (s.cursor.apply last es).2.tally } := by
  cases hsome : accepted? s.cursor.tick p with
  | none =>
    rw [handle_eq_of_none hsome] at h
    exact absurd (Prod.mk.inj h).2 (by simp)
  | some b =>
    obtain ⟨last, es⟩ := b
    rw [handle_eq_of_some hsome] at h
    obtain ⟨rfl, hd⟩ := Prod.mk.inj h
    exact ⟨last, es, rfl, rfl, (Option.some.inj hd).symm⟩

end Session

/-- Comparing with the tick picks the same answers as comparing with all that was reached. -/
theorem accepted_singleton {c : Cursor} {reached : List Nat} (hr : c.Reaches reached) (p : Poll) :
    accepted reached [p] = (Session.accepted? c.tick p).toList := by
  cases p with
  | idle => rfl
  | failed f => rfl
  | batch last body =>
    simp only [accepted, Session.accepted?, hr.lt_iff]
    by_cases hlt : c.tick < last
    · rw [if_neg (Nat.not_le_of_lt hlt)]
      cases readBatch body <;> simp [hlt]
    · rw [if_pos (Nat.le_of_not_lt hlt)]
      cases readBatch body <;> simp [hlt]

/-! ### Following answers -/

/-- A cursor that follows stands at the end of the last batch, which is the greatest of all. -/
theorem reaches_follow (start : Nat) (polls : List Poll) :
    (follow start polls).1.Reaches ([start] ++ (accepted [start] polls).map Prod.fst) ∧
      (follow start polls).1.tick = lastPosition start (accepted [start] polls) := by
  induction polls using List.reverseRecOn with
  | nil =>
    refine ⟨⟨List.mem_singleton.mpr rfl, fun position hp => ?_⟩, rfl⟩
    exact Nat.le_of_eq (List.mem_singleton.mp hp)
  | append_singleton polls p ih =>
    obtain ⟨hreaches, htick⟩ := ih
    rw [follow, accepted_append, accepted_singleton hreaches, Cursor.applyAll_append]
    cases haccepted : Session.accepted? (follow start polls).1.tick p with
    | none =>
      rw [Option.toList_none, List.append_nil]
      exact ⟨hreaches, htick⟩
    | some b =>
      obtain ⟨last, es⟩ := b
      obtain ⟨-, -, hlt, -⟩ := Session.accepted?_eq_some_iff.mp haccepted
      rw [Option.toList_some, List.map_append, ← List.append_assoc, lastPosition,
        List.getLast?_concat]
      refine ⟨hreaches.apply hlt es, ?_⟩
      exact (Cursor.tick_apply _ last es).trans (Nat.max_eq_right (Nat.le_of_lt hlt))

theorem accepted_concat (start : Nat) (polls : List Poll) (p : Poll) :
    accepted [start] (polls ++ [p]) = accepted [start] polls ++
      (Session.accepted? (follow start polls).1.tick p).toList := by
  rw [accepted_append, accepted_singleton (reaches_follow start polls).1]

theorem follow_concat_of_none {start : Nat} {polls : List Poll} {p : Poll}
    (h : Session.accepted? (follow start polls).1.tick p = none) :
    follow start (polls ++ [p]) = follow start polls := by
  rw [follow, accepted_concat, h, Option.toList_none, List.append_nil]
  rfl

theorem follow_concat_of_some {start last : Nat} {polls : List Poll} {p : Poll}
    {es : List LogEntry}
    (h : Session.accepted? (follow start polls).1.tick p = some (last, es)) :
    follow start (polls ++ [p]) = (((follow start polls).1.apply last es).1,
      (follow start polls).2 ++ [((follow start polls).1.apply last es).2]) := by
  rw [follow, accepted_concat, h, Option.toList_some, Cursor.applyAll_append]
  rfl

/-! ### Whole runs -/

/-- The phases of a listener that has read where the log ends. -/
def Phase.IsBegun : Phase → Prop
  | .starting | .reporting _ | .ended (.error _) => False
  | _ => True

namespace Machine

/-- Where a listener is that began at `start`, in terms of the moves it made since. -/
structure Follows (start : Nat) (moves : List Move) (m : Machine) : Prop where
  begun : m.phase.IsBegun
  once : Moves.starts moves = []
  cursor : m.session.cursor = (follow start (Moves.handled moves)).1
  events : (Moves.published moves).map Prod.snd ++ m.phase.unpublished =
    (follow start (Moves.handled moves)).2.flatMap Effect.events
  behind : ∀ position ∈ Moves.asked moves, position ≤ m.session.cursor.tick
  forward : (Moves.asked moves).Pairwise (· ≤ ·)

namespace Follows

variable {start : Nat} {moves : List Move} {m next : Machine}

theorem of_quiet (h : Follows start moves m) {move : Move} (hbegun : next.phase.IsBegun)
    (hcursor : next.session.cursor = m.session.cursor)
    (hunpublished : next.phase.unpublished = m.phase.unpublished) (hstart : move.start? = none)
    (hasked : move.asked? = none) (hhandled : move.handled? = none)
    (hpublished : move.published? = none) : Follows start (moves ++ [move]) next where
  begun := hbegun
  once := by simp [h.once, hstart]
  cursor := by simp [hcursor, hhandled, h.cursor]
  events := by simp [hpublished, hunpublished, hhandled, h.events]
  behind := by simpa [hasked, hcursor] using h.behind
  forward := by simpa [hasked] using h.forward

theorem ask (h : Follows start moves m) (hphase : m.phase = .asking)
    (hnext : next.phase = .fetching m.session.cursor.tick)
    (hcursor : next.session.cursor = m.session.cursor) :
    Follows start (moves ++ [.ask m.session.cursor.tick]) next where
  begun := by rw [hnext]; trivial
  once := by simp [h.once, Move.start?]
  cursor := by simp [hcursor, Move.handled?, h.cursor]
  events := by
    have hevents := h.events
    simp only [hphase, Phase.unpublished, Phase.delivery?] at hevents
    simpa [hnext, Phase.unpublished, Phase.delivery?, Move.published?, Move.handled?] using hevents
  behind position hp := by
    rw [Moves.asked_append] at hp
    rw [hcursor]
    rcases List.mem_append.mp hp with hp | hp
    · exact h.behind position hp
    · exact Nat.le_of_eq (List.mem_singleton.mp hp)
  forward := by
    rw [Moves.asked_append, List.pairwise_append]
    refine ⟨h.forward, List.pairwise_singleton _ _, fun position hp last hl => ?_⟩
    rw [List.mem_singleton.mp hl]
    exact h.behind position hp

theorem take {p : Poll} {last : Nat} {es : List LogEntry} (h : Follows start moves m)
    (hphase : m.phase = .handling p)
    (haccepted : Session.accepted? m.session.cursor.tick p = some (last, es))
    (hbegun : next.phase.IsBegun)
    (hcursor : next.session.cursor = (m.session.cursor.apply last es).1)
    (hunpublished : next.phase.unpublished = (m.session.cursor.apply last es).2.events) :
    Follows start (moves ++ [.handle p]) next := by
  have htick := Cursor.tick_apply m.session.cursor last es
  rw [h.cursor] at haccepted
  have hfollow : follow start (Moves.handled (moves ++ [.handle p])) =
      ((m.session.cursor.apply last es).1, (follow start (Moves.handled moves)).2 ++
        [(m.session.cursor.apply last es).2]) := by
    rw [Moves.handled_append, h.cursor]
    exact follow_concat_of_some haccepted
  refine ⟨hbegun, ?_, ?_, ?_, fun position hp => ?_, ?_⟩
  · simp [h.once, Move.start?]
  · rw [hfollow, hcursor]
  · have hevents := h.events
    simp only [hphase, Phase.unpublished, Phase.delivery?, Option.map_none, Option.getD_none,
      List.append_nil] at hevents
    rw [hfollow, List.flatMap_append, ← hevents, hunpublished]
    simp [Move.published?]
  · simp only [Moves.asked_append, Moves.asked_singleton, Move.asked?, Option.toList_none,
      List.append_nil] at hp
    rw [hcursor, htick]
    exact Nat.le_trans (h.behind position hp) (Nat.le_max_left _ _)
  · simpa [Move.asked?] using h.forward

/-- An answer that is not applied changes neither the position nor the transactions. -/
theorem reject {p : Poll} (h : Follows start moves m) (hphase : m.phase = .handling p)
    (haccepted : Session.accepted? m.session.cursor.tick p = none)
    (hnext : next.phase = .waiting) (hcursor : next.session.cursor = m.session.cursor) :
    Follows start (moves ++ [.handle p]) next := by
  rw [h.cursor] at haccepted
  have hfollow : follow start (Moves.handled (moves ++ [.handle p])) =
      follow start (Moves.handled moves) := by
    rw [Moves.handled_append]
    exact follow_concat_of_none haccepted
  refine ⟨by rw [hnext]; trivial, ?_, ?_, ?_, ?_, ?_⟩
  · simp [h.once, Move.start?]
  · rw [hfollow, hcursor, h.cursor]
  · have hevents := h.events
    simp only [hphase, Phase.unpublished, Phase.delivery?] at hevents
    rw [hfollow]
    simpa [hnext, Phase.unpublished, Phase.delivery?, Move.published?] using hevents
  · simpa [Move.asked?, hcursor] using h.behind
  · simpa [Move.asked?] using h.forward

theorem publish {publication : Nat} {e : ChangeEvent} {d : Delivery} {rest : List ChangeEvent}
    (h : Follows start moves m) (hphase : m.phase = .publishing d)
    (hfirst : d.unpublished = e :: rest) (hbegun : next.phase.IsBegun)
    (hcursor : next.session.cursor = m.session.cursor)
    (hunpublished : next.phase.unpublished = rest) :
    Follows start (moves ++ [.publish publication e]) next where
  begun := hbegun
  once := by simp [h.once, Move.start?]
  cursor := by simp [hcursor, Move.handled?, h.cursor]
  events := by
    have hevents := h.events
    simp only [hphase, Phase.unpublished, Phase.delivery?, Option.map_some, Option.getD_some,
      hfirst] at hevents
    simpa [hunpublished, Move.published?, Move.handled?] using hevents
  behind := by simpa [Move.asked?, hcursor] using h.behind
  forward := by simpa [Move.asked?] using h.forward

theorem move {move : Move} (h : Follows start moves m) (hgoes : m.Goes move next) :
    Follows start (moves ++ [move]) next := by
  have hbegun := h.begun
  cases hgoes with
  | start tick hphase => rw [hphase] at hbegun; exact absurd hbegun id
  | failToStart failure hphase => rw [hphase] at hbegun; exact absurd hbegun id
  | report failure hphase => rw [hphase] at hbegun; exact absurd hbegun id
  | ask hphase => exact h.ask hphase rfl rfl
  | apply p session d hphase hhandle =>
    obtain ⟨last, es, haccepted, rfl, rfl⟩ := Session.exists_accepted?_of_handle_eq_some hhandle
    exact h.take hphase haccepted trivial rfl rfl
  | reject p session hphase hhandle =>
    have haccepted := Session.accepted?_of_handle_eq_none hhandle
    rw [Session.handle_eq_of_none haccepted] at hhandle
    obtain ⟨rfl, -⟩ := Prod.mk.inj hhandle
    exact h.reject hphase haccepted rfl rfl
  | publish publication e rest d hphase hfirst => exact h.publish hphase hfirst trivial rfl rfl
  | delivered publication e d crashed hphase =>
    refine h.of_quiet trivial rfl ?_ rfl rfl rfl rfl
    simp only [hphase, Phase.unpublished, Phase.delivery?, Option.map_some]
  | settle d hphase hall =>
    refine h.of_quiet trivial rfl ?_ rfl rfl rfl rfl
    simp only [hphase, Phase.unpublished, Phase.delivery?, Option.map_some, Option.map_none,
      Option.getD_some, Option.getD_none, hall]
  | _ =>
    refine h.of_quiet trivial rfl ?_ rfl rfl rfl rfl
    simp only [Phase.unpublished, Phase.delivery?, *]

end Follows

/-- The moves behind a machine: none, those of a listener that could not start, or those of
one that began. -/
inductive Stage : List Move → Machine → Prop where
  | unbegun {m : Machine} (hphase : m.phase = .starting) (hsession : m.session = {}) : Stage [] m
  | failing {m : Machine} {failure : Failure} (cause : Failure)
      (hphase : m.phase = .reporting failure) (hsession : m.session = {}) :
      Stage [.started (.error cause)] m
  | failed {m : Machine} {failure : Failure} (cause : Failure)
      (hphase : m.phase = .ended (.error failure)) (hsession : m.session = {}) :
      Stage [.started (.error cause), .reported] m
  | begun {m : Machine} {start : Nat} {rest : List Move} (hfollows : Follows start rest m) :
      Stage (.started (.ok start) :: rest) m

theorem Goes.exists_eq_started {m next : Machine} {move : Move} (h : m.Goes move next)
    (hphase : m.phase = .starting) : ∃ position, move = .started position := by
  have hstep := h.step_eq
  cases move with
  | started position => exact ⟨position, rfl⟩
  | _ => simp [step, hphase] at hstep

theorem Goes.eq_reported {m next : Machine} {move : Move} (h : m.Goes move next)
    {failure : Failure} (hphase : m.phase = .reporting failure) : move = .reported := by
  have hstep := h.step_eq
  cases move with
  | reported => rfl
  | _ => simp [step, hphase] at hstep

theorem Reached.stage {moves : List Move} {m : Machine} (h : Reached moves m) : Stage moves m := by
  induction h with
  | new => exact .unbegun rfl rfl
  | told h running wake ih =>
    cases ih with
    | unbegun hphase hsession => exact .unbegun hphase hsession
    | failing cause hphase hsession => exact .failing cause hphase hsession
    | failed cause hphase hsession => exact .failed cause hphase hsession
    | begun hf => exact .begun ⟨hf.begun, hf.once, hf.cursor, hf.events, hf.behind, hf.forward⟩
  | @moved moves m next move h hgoes ih =>
    cases ih with
    | begun hfollows => exact .begun (hfollows.move hgoes)
    | failed cause hphase hsession => exact absurd hphase (hgoes.phase_ne_ended _)
    | unbegun hphase hsession =>
      obtain ⟨position, rfl⟩ := hgoes.exists_eq_started hphase
      cases hgoes with
      | start tick _ =>
        exact .begun ⟨trivial, rfl, rfl, rfl, fun _ hp => absurd hp List.not_mem_nil, .nil⟩
      | failToStart failure _ => exact .failing failure rfl hsession
    | failing cause hphase hsession =>
      obtain rfl := hgoes.eq_reported hphase
      cases hgoes with
      | report failure _ => exact .failed cause rfl hsession

/-- A listener that has read where the log ends follows the answers from there. -/
theorem Reached.exists_follows {moves : List Move} {m : Machine} (h : Reached moves m) {start : Nat}
    (hstart : .started (.ok start) ∈ moves) :
    ∃ rest, moves = .started (.ok start) :: rest ∧ Follows start rest m := by
  cases h.stage with
  | unbegun => exact absurd hstart List.not_mem_nil
  | failing cause => exact absurd hstart (by simp)
  | failed cause => exact absurd hstart (by simp)
  | @begun m first rest hfollows =>
    rcases List.mem_cons.mp hstart with heq | hrest
    · obtain rfl := Except.ok.inj (Move.started.inj heq)
      exact ⟨rest, rfl, hfollows⟩
    · have hmem : start ∈ Moves.starts rest := List.mem_filterMap.mpr ⟨_, hrest, rfl⟩
      rw [hfollows.once] at hmem
      exact absurd hmem List.not_mem_nil

end Machine

end Docstore
