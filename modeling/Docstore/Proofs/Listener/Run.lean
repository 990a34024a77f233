import Docstore.Listener.Scene

/-!
# Runs of the listener

`Machine.step` is a function on phases and moves; `Machine.Goes` lists, one
constructor for each, the moves that are possible and what each of them leaves.
The two agree (`step_eq_some_iff`), and every invariant of the machine is proved
by cases on `Goes`.

`Machine.Reached` says by which moves a machine came where it is, when others may
set its flag and its wake-up in between as they like.  What the moves show is read
off their list: where the log ended (`Moves.starts`), the positions asked from
(`Moves.asked`), the answers handled (`Moves.handled`), the events published
(`Moves.published`) and those whose publication is finished (`Moves.delivered`).
-/

namespace Docstore

namespace Machine

/-- The machine may make this move, and it leads there. -/
inductive Goes (m : Machine) : Move → Machine → Prop where
  | start (tick : Nat) (hphase : m.phase = .starting) :
      Goes m (.started (.ok tick))
        { m with phase := .checking, session := { m.session with cursor := { tick } } }
  | failToStart (failure : Failure) (hphase : m.phase = .starting) :
      Goes m (.started (.error failure))
        { m with phase := .reporting (startupFailure failure), running := false }
  | report (failure : Failure) (hphase : m.phase = .reporting failure) :
      Goes m .reported { m with phase := .ended (.error failure) }
  | goOn (hphase : m.phase = .checking) (hrunning : m.running = true) :
      Goes m (.check true) { m with phase := .asking }
  | leave (hphase : m.phase = .checking) (hstopped : m.running = false) :
      Goes m (.check false) { m with phase := .ended (.ok m.session.cursor.tick) }
  | ask (hphase : m.phase = .asking) :
      Goes m (.ask m.session.cursor.tick)
        { m with
          phase := .fetching m.session.cursor.tick
          session := { m.session with
            metrics := { m.session.metrics with polls := m.session.metrics.polls + 1 } } }
  | answer (position : Nat) (p : Poll) (hphase : m.phase = .fetching position) :
      Goes m (.answer p) { m with phase := .received p }
  | take (p : Poll) (hphase : m.phase = .received p) (hrunning : m.running = true) :
      Goes m (.recheck true) { m with phase := .handling p }
  | throwAway (p : Poll) (hphase : m.phase = .received p) (hstopped : m.running = false) :
      Goes m (.recheck false) { m with phase := .ended (.ok m.session.cursor.tick) }
  | apply (p : Poll) (session : Session) (d : Delivery) (hphase : m.phase = .handling p)
      (hhandle : m.session.handle p = (session, some d)) :
      Goes m (.handle p) { m with phase := .publishing d, session }
  | reject (p : Poll) (session : Session) (hphase : m.phase = .handling p)
      (hhandle : m.session.handle p = (session, none)) :
      Goes m (.handle p) { m with phase := .waiting, session }
  | publish (publication : Nat) (e : ChangeEvent) (rest : List ChangeEvent) (d : Delivery)
      (hphase : m.phase = .publishing d) (hfirst : d.unpublished = e :: rest) :
      Goes m (.publish publication e)
        { m with phase := .delivering publication e { d with unpublished := rest } }
  | delivered (publication : Nat) (e : ChangeEvent) (d : Delivery) (crashed : Nat)
      (hphase : m.phase = .delivering publication e d) :
      Goes m (.delivered publication e crashed)
        { m with phase := .publishing { d with crashed := d.crashed + crashed } }
  | settle (d : Delivery) (hphase : m.phase = .publishing d) (hall : d.unpublished = []) :
      Goes m .settle
        { m with
          phase := .checking
          session := { m.session with metrics := Session.count m.session.metrics d } }
  | elapse (hphase : m.phase = .waiting) : Goes m .elapsed { m with phase := .checking }
  | wake (hphase : m.phase = .waiting) (hwake : m.wake = true) :
      Goes m .woken { m with phase := .checking, wake := false }

theorem Goes.step_eq {m next : Machine} {move : Move} (h : m.Goes move next) :
    m.step move = some next := by
  cases h with
  | start tick hphase => simp only [step, hphase]
  | failToStart failure hphase => simp only [step, hphase]
  | report failure hphase => simp only [step, hphase]
  | goOn hphase hrunning => simp only [step, look, hphase, hrunning, if_true]
  | leave hphase hstopped =>
    simp only [step, look, hphase, hstopped, if_true, Bool.false_eq_true, if_false]
  | ask hphase => simp only [step, hphase, if_true]
  | answer position p hphase => simp only [step, hphase]
  | take p hphase hrunning => simp only [step, look, hphase, hrunning, if_true]
  | throwAway p hphase hstopped =>
    simp only [step, look, hphase, hstopped, if_true, Bool.false_eq_true, if_false]
  | apply p session d hphase hhandle =>
    simp only [step, hphase, hhandle, if_true, Option.map_some, Option.getD_some]
  | reject p session hphase hhandle =>
    simp only [step, hphase, hhandle, if_true, Option.map_none, Option.getD_none]
  | publish publication e rest d hphase hfirst => simp only [step, hphase, hfirst, if_true]
  | delivered publication e d crashed hphase => simp only [step, hphase, and_self, if_true]
  | settle d hphase hall => simp only [step, hphase, hall, if_true]
  | elapse hphase => simp only [step, hphase]
  | wake hphase hwake => simp only [step, hphase, hwake, if_true]

theorem look_eq_some_iff {m next : Machine} {goOn : Bool} {phase : Phase} :
    m.look goOn phase = some next ↔
      (goOn = true ∧ m.running = true ∧ next = { m with phase }) ∨
      (goOn = false ∧ m.running = false ∧
        next = { m with phase := .ended (.ok m.session.cursor.tick) }) := by
  rw [look]
  cases goOn <;> cases hrunning : m.running <;> simp [eq_comm]

theorem goes_of_step_eq {m next : Machine} {move : Move} (h : m.step move = some next) :
    m.Goes move next := by
  cases move with
  | started position =>
    simp only [step] at h
    split at h
    · next hphase => exact Option.some.inj h ▸ .start _ hphase
    · next hphase => exact Option.some.inj h ▸ .failToStart _ hphase
    · exact absurd h (by simp)
  | reported =>
    simp only [step] at h
    split at h
    · next hphase => exact Option.some.inj h ▸ .report _ hphase
    · exact absurd h (by simp)
  | check goOn =>
    simp only [step] at h
    split at h
    · next hphase =>
      obtain ⟨rfl, hrunning, rfl⟩ | ⟨rfl, hstopped, rfl⟩ := look_eq_some_iff.mp h
      · exact .goOn hphase hrunning
      · exact .leave hphase hstopped
    · exact absurd h (by simp)
  | ask position =>
    simp only [step] at h
    split at h
    · next hphase =>
      split at h
      · next hposition =>
        subst hposition
        exact Option.some.inj h ▸ .ask hphase
      · exact absurd h (by simp)
    · exact absurd h (by simp)
  | answer p =>
    simp only [step] at h
    split at h
    · next position hphase => exact Option.some.inj h ▸ .answer position p hphase
    · exact absurd h (by simp)
  | recheck goOn =>
    simp only [step] at h
    split at h
    · next p hphase =>
      obtain ⟨rfl, hrunning, rfl⟩ | ⟨rfl, hstopped, rfl⟩ := look_eq_some_iff.mp h
      · exact .take p hphase hrunning
      · exact .throwAway p hphase hstopped
    · exact absurd h (by simp)
  | handle p =>
    simp only [step] at h
    split at h
    · next answer hphase =>
      split at h
      · next hanswer =>
        subst hanswer
        obtain ⟨session, delivery?, hhandle⟩ : ∃ session delivery?,
            m.session.handle p = (session, delivery?) := ⟨_, _, rfl⟩
        rw [hhandle] at h
        cases delivery? with
        | some d => exact Option.some.inj h ▸ .apply p session d hphase hhandle
        | none => exact Option.some.inj h ▸ .reject p session hphase hhandle
      · exact absurd h (by simp)
    · exact absurd h (by simp)
  | publish publication e =>
    simp only [step] at h
    split at h
    · next d hphase =>
      split at h
      · next first rest hfirst =>
        split at h
        · next he =>
          subst he
          exact Option.some.inj h ▸ .publish publication e rest d hphase hfirst
        · exact absurd h (by simp)
      · exact absurd h (by simp)
    · exact absurd h (by simp)
  | delivered publication e crashed =>
    simp only [step] at h
    split at h
    · next awaited first d hphase =>
      split at h
      · next hsame =>
        obtain ⟨rfl, rfl⟩ := hsame
        exact Option.some.inj h ▸ .delivered publication e d crashed hphase
      · exact absurd h (by simp)
    · exact absurd h (by simp)
  | settle =>
    simp only [step] at h
    split at h
    · next d hphase =>
      split at h
      · next hall => exact Option.some.inj h ▸ .settle d hphase hall
      · exact absurd h (by simp)
    · exact absurd h (by simp)
  | elapsed =>
    simp only [step] at h
    split at h
    · next hphase => exact Option.some.inj h ▸ .elapse hphase
    · exact absurd h (by simp)
  | woken =>
    simp only [step] at h
    split at h
    · next hphase =>
      split at h
      · next hwake => exact Option.some.inj h ▸ .wake hphase hwake
      · exact absurd h (by simp)
    · exact absurd h (by simp)

/-- **The moves of the machine are those of `Goes`.** -/
theorem step_eq_some_iff {m next : Machine} {move : Move} :
    m.step move = some next ↔ m.Goes move next :=
  ⟨goes_of_step_eq, Goes.step_eq⟩

theorem Goes.phase_ne_ended {m next : Machine} {move : Move} (h : m.Goes move next)
    (result : Except Failure Nat) : m.phase ≠ .ended result := by
  intro hended
  have hstep := h.step_eq
  cases move <;> simp [step, hended] at hstep

theorem Goes.running_eq_false {m next : Machine} {move : Move} (h : m.Goes move next)
    (hclear : m.running = false) :
    next.running = false := by
  cases h with
  | failToStart => rfl
  | _ => exact hclear

theorem Goes.wake_of_wake {m next : Machine} {move : Move} (h : m.Goes move next)
    (hwake : next.wake = true) : m.wake = true := by
  cases h with
  | wake => exact absurd hwake Bool.false_ne_true
  | _ => exact hwake

theorem Goes.of_ask {m next : Machine} {position : Nat} (h : m.Goes (.ask position) next) :
    m.phase = .asking ∧ position = m.session.cursor.tick := by
  cases h with
  | ask hphase => exact ⟨hphase, rfl⟩

theorem Goes.of_delivered {m next : Machine} {publication crashed : Nat} {e : ChangeEvent}
    (h : m.Goes (.delivered publication e crashed) next) :
    ∃ d, m.phase = .delivering publication e d := by
  cases h with
  | delivered publication e d crashed hphase => exact ⟨d, hphase⟩

/-! ### The moves behind a machine -/

/-- A new machine came here by these moves.  Flag and wake-up may have changed in between. -/
inductive Reached : List Move → Machine → Prop where
  | new : Reached [] {}
  | moved {moves : List Move} {m next : Machine} {move : Move} (h : Reached moves m)
      (hgoes : m.Goes move next) : Reached (moves ++ [move]) next
  | told {moves : List Move} {m : Machine} (h : Reached moves m) (running wake : Bool) :
      Reached moves { m with running, wake }

end Machine

namespace Move

/-- The position where the log ended when the listener started. -/
def start? : Move → Option Nat
  | .started (.ok position) => some position
  | _ => none

def asked? : Move → Option Nat
  | .ask position => some position
  | _ => none

def handled? : Move → Option Poll
  | .handle p => some p
  | _ => none

def published? : Move → Option (Nat × ChangeEvent)
  | .publish publication e => some (publication, e)
  | _ => none

def delivered? : Move → Option (Nat × ChangeEvent)
  | .delivered publication e _ => some (publication, e)
  | _ => none

def crashed? : Move → Option Nat
  | .delivered _ _ crashed => some crashed
  | _ => none

end Move

namespace Moves

/-- The positions where the log ended when a listener started: one at most. -/
def starts (moves : List Move) : List Nat := moves.filterMap Move.start?

def asked (moves : List Move) : List Nat := moves.filterMap Move.asked?

def handled (moves : List Move) : List Poll := moves.filterMap Move.handled?

/-- The events that the listener begins to publish, with the numbers of their publications. -/
def published (moves : List Move) : List (Nat × ChangeEvent) := moves.filterMap Move.published?

def delivered (moves : List Move) : List (Nat × ChangeEvent) := moves.filterMap Move.delivered?

def crashed (moves : List Move) : List Nat := moves.filterMap Move.crashed?

section

variable (as bs : List Move) (move : Move)

@[simp] theorem starts_append : starts (as ++ bs) = starts as ++ starts bs :=
  List.filterMap_append

@[simp] theorem asked_append : asked (as ++ bs) = asked as ++ asked bs := List.filterMap_append

@[simp] theorem handled_append : handled (as ++ bs) = handled as ++ handled bs :=
  List.filterMap_append

@[simp] theorem published_append : published (as ++ bs) = published as ++ published bs :=
  List.filterMap_append

@[simp] theorem delivered_append : delivered (as ++ bs) = delivered as ++ delivered bs :=
  List.filterMap_append

@[simp] theorem crashed_append : crashed (as ++ bs) = crashed as ++ crashed bs :=
  List.filterMap_append

theorem filterMap_singleton {α : Type} (f : Move → Option α) :
    [move].filterMap f = (f move).toList := by
  cases hmove : f move <;> simp [hmove]

@[simp] theorem starts_singleton : starts [move] = move.start?.toList := filterMap_singleton ..

@[simp] theorem asked_singleton : asked [move] = move.asked?.toList := filterMap_singleton ..

@[simp] theorem handled_singleton : handled [move] = move.handled?.toList :=
  filterMap_singleton ..

@[simp] theorem published_singleton : published [move] = move.published?.toList :=
  filterMap_singleton ..

@[simp] theorem delivered_singleton : delivered [move] = move.delivered?.toList :=
  filterMap_singleton ..

@[simp] theorem crashed_singleton : crashed [move] = move.crashed?.toList :=
  filterMap_singleton ..

end

end Moves

end Docstore
