import RepoCatalog.Repo
import RepoCatalog.Source.Error

/-!
# The channel between a source and its reader

A source sends its items into a channel that holds a few of them, and a reader takes them out. The
reader stops when the source has sent everything, when it has had enough, or when it is cancelled.
It then closes the channel and throws away what is left, and the source gives up its next send.

The two sides move in any order, and between two moves the reading may be cancelled from outside. A
move is one look: each side first looks whether it is to go on, and only with its next move looks
into the channel. What falls between the two is seen no more. A side that waits is woken by what it
waits for or by a cancellation, and looks again whether it is to go on; one that was cancelled since
it looked does not wait. `Relay.run` lets the two sides take turns until both are done.
-/
namespace RepoCatalog

/-- One item of a listing: a repository, or the failure that stands in its place. -/
abbrev Item := Except SourceError Repo

/-- What a reader does with an item, and whether it has been cancelled. -/
structure Reader (σ : Type) where
  /-- The state after an item, and whether to go on. -/
  receive : σ → Item → σ × Bool
  isCancelled : σ → Bool

/-- How the reading ended. -/
inductive Ending where
  | exhausted
  | stopped
  | cancelled
deriving DecidableEq, Inhabited

inductive SourcePhase where
  | looking
  /-- It has looked and is to go on. -/
  | sending
  /-- It waits for room. -/
  | waiting
  | gone
deriving DecidableEq, Inhabited

inductive ReaderPhase where
  | looking
  /-- It has looked and is to go on. -/
  | taking
  /-- It waits for an item. -/
  | waiting
  | handling (item : Item)
  /-- It takes no more, but the source has not been told. -/
  | closing (ending : Ending)
  | draining (ending : Ending)
  | done (ending : Ending)
deriving Inhabited

def SourcePhase.woken : SourcePhase → SourcePhase
  | .waiting => .looking
  | phase => phase

def SourcePhase.wokenIf (isCancelled : Bool) (phase : SourcePhase) : SourcePhase :=
  if isCancelled then phase.woken else phase

def ReaderPhase.woken : ReaderPhase → ReaderPhase
  | .waiting => .looking
  | phase => phase

def ReaderPhase.isOpen : ReaderPhase → Bool
  | .draining _ | .done _ => false
  | _ => true

/-- A source, a channel and a reader. -/
structure Relay (σ : Type) where
  capacity : Nat
  /-- What the source has still to send. -/
  pending : List Item
  source : SourcePhase
  buffer : List Item
  phase : ReaderPhase
  state : σ
  /-- Whether the reading has been cancelled from outside. -/
  isTold : Bool

inductive Move where
  | send
  | receive
  | cancel
deriving DecidableEq, Inhabited

namespace Relay

variable {σ : Type}

/-- The capacity of the widest channel there is. -/
def widest : Nat := 0x1fffffffffffffff

/-- Before the first move. A channel holds at least one item. -/
def start (capacity : Nat) (items : List Item) (s : σ) : Relay σ :=
  ⟨max 1 capacity, items, .looking, [], .looking, s, false⟩

def isCancelled (reader : Reader σ) (m : Relay σ) : Bool :=
  m.isTold || reader.isCancelled m.state

/-- The source ends, and with it what the reader may have waited for. -/
def leave (m : Relay σ) : Relay σ :=
  { m with source := .gone, phase := m.phase.woken }

/-- The source moves: it looks whether it is to go on, sends one item, waits for room, or ends. -/
def send (reader : Reader σ) (m : Relay σ) : Relay σ :=
  match m.source with
  | .looking =>
    if m.isCancelled reader || !m.phase.isOpen then m.leave else { m with source := .sending }
  | .sending =>
    if !m.phase.isOpen then m.leave
    else match m.pending with
      | [] => m.leave
      | item :: rest =>
        if m.buffer.length < m.capacity then
          { m with
            pending := rest
            source := .looking
            buffer := m.buffer ++ [item]
            phase := m.phase.woken }
        else if m.isCancelled reader then m.leave
        else { m with source := .waiting }
  | .waiting | .gone => m

/-- The reader moves: it looks whether it is to go on, takes one item, is done with the item that it
took, waits, or ends. -/
def receive (reader : Reader σ) (m : Relay σ) : Relay σ :=
  match m.phase with
  | .looking =>
    if m.isCancelled reader then { m with phase := .closing .cancelled }
    else { m with phase := .taking }
  | .taking =>
    match m.buffer with
    | item :: rest => { m with source := m.source.woken, buffer := rest, phase := .handling item }
    | [] =>
      if m.source = .gone then { m with phase := .closing .exhausted }
      else if m.isCancelled reader then { m with phase := .closing .cancelled }
      else { m with phase := .waiting }
  | .handling item =>
    let (s, goesOn) := reader.receive m.state item
    { m with
      source := m.source.wokenIf (reader.isCancelled s)
      phase := if goesOn then .looking else .closing .stopped
      state := s }
  | .closing ending => { m with source := m.source.woken, phase := .draining ending }
  | .draining ending =>
    match m.buffer with
    | _ :: rest => { m with buffer := rest }
    | [] => if m.source = .gone then { m with phase := .done ending } else m
  | .waiting | .done _ => m

/-- Only the first cancellation wakes anybody. -/
def cancel (m : Relay σ) : Relay σ :=
  if m.isTold then m
  else { m with source := m.source.woken, phase := m.phase.woken, isTold := true }

def move (reader : Reader σ) (m : Relay σ) : Move → Relay σ
  | .send => m.send reader
  | .receive => m.receive reader
  | .cancel => m.cancel

def ending? (m : Relay σ) : Option Ending :=
  match m.phase with
  | .done ending => some ending
  | _ => none

/-- What a move of the source can be. -/
inductive Sent (reader : Reader σ) (m : Relay σ) : Relay σ → Prop
  | rests (hsource : m.source = .waiting ∨ m.source = .gone) : Sent reader m m
  | looks (hsource : m.source = .looking) (hgoing : m.isCancelled reader = false)
      (hopen : m.phase.isOpen = true) : Sent reader m { m with source := .sending }
  | leaves (hsource : m.source = .looking ∨ m.source = .sending)
      (hreason : m.isCancelled reader = true ∨ m.phase.isOpen = false ∨ m.pending = []) :
      Sent reader m m.leave
  | sends (hsource : m.source = .sending) (hopen : m.phase.isOpen = true) (item : Item)
      (rest : List Item) (hpending : m.pending = item :: rest)
      (hroom : m.buffer.length < m.capacity) :
      Sent reader m { m with
        pending := rest
        source := .looking
        buffer := m.buffer ++ [item]
        phase := m.phase.woken }
  | waits (hsource : m.source = .sending) (hopen : m.phase.isOpen = true)
      (hfull : m.capacity ≤ m.buffer.length) (hgoing : m.isCancelled reader = false) :
      Sent reader m { m with source := .waiting }

theorem sent_send (reader : Reader σ) (m : Relay σ) : Sent reader m (m.send reader) := by
  unfold send
  split
  · rename_i hsource
    split
    · rename_i hstop
      rw [Bool.or_eq_true, Bool.not_eq_true'] at hstop
      exact .leaves (.inl hsource) (hstop.imp_right .inl)
    · rename_i hstop
      rw [Bool.or_eq_true, not_or, Bool.not_eq_true, Bool.not_eq_true, Bool.not_eq_false'] at hstop
      exact .looks hsource hstop.1 hstop.2
  · rename_i hsource
    split
    · rename_i hclosed
      rw [Bool.not_eq_true'] at hclosed
      exact .leaves (.inr hsource) (.inr (.inl hclosed))
    · rename_i hopen
      rw [Bool.not_eq_true, Bool.not_eq_false'] at hopen
      split
      · rename_i hpending
        exact .leaves (.inr hsource) (.inr (.inr hpending))
      · rename_i item rest hpending
        split
        · rename_i hroom
          exact .sends hsource hopen item rest hpending hroom
        · rename_i hfull
          split
          · rename_i hcancelled
            exact .leaves (.inr hsource) (.inl hcancelled)
          · rename_i hgoing
            exact .waits hsource hopen (Nat.le_of_not_lt hfull) (Bool.eq_false_iff.mpr hgoing)
  · rename_i hsource
    exact .rests (.inl hsource)
  · rename_i hsource
    exact .rests (.inr hsource)

/-- Whether the reader can do nothing by itself. -/
inductive IsResting (m : Relay σ) : Prop
  | waiting (hphase : m.phase = .waiting)
  | draining (ending : Ending) (hphase : m.phase = .draining ending) (hbuffer : m.buffer = [])
      (hthere : m.source ≠ .gone)
  | done (ending : Ending) (hphase : m.phase = .done ending)

/-- What a move of the reader can be. -/
inductive Received (reader : Reader σ) (m : Relay σ) : Relay σ → Prop
  | rests (hrests : m.IsResting) : Received reader m m
  | sees (hphase : m.phase = .looking ∨ m.phase = .taking)
      (hcancelled : m.isCancelled reader = true) :
      Received reader m { m with phase := .closing .cancelled }
  | looks (hphase : m.phase = .looking) (hgoing : m.isCancelled reader = false) :
      Received reader m { m with phase := .taking }
  | takes (hphase : m.phase = .taking) (item : Item) (rest : List Item)
      (hbuffer : m.buffer = item :: rest) :
      Received reader m
        { m with source := m.source.woken, buffer := rest, phase := .handling item }
  | ends (hphase : m.phase = .taking) (hbuffer : m.buffer = []) (hgone : m.source = .gone) :
      Received reader m { m with phase := .closing .exhausted }
  | waits (hphase : m.phase = .taking) (hbuffer : m.buffer = []) (hthere : m.source ≠ .gone)
      (hgoing : m.isCancelled reader = false) : Received reader m { m with phase := .waiting }
  | goesOn (item : Item) (hphase : m.phase = .handling item) (s : σ)
      (hreceive : reader.receive m.state item = (s, true)) :
      Received reader m { m with
        source := m.source.wokenIf (reader.isCancelled s)
        phase := .looking
        state := s }
  | stops (item : Item) (hphase : m.phase = .handling item) (s : σ)
      (hreceive : reader.receive m.state item = (s, false)) :
      Received reader m { m with
        source := m.source.wokenIf (reader.isCancelled s)
        phase := .closing .stopped
        state := s }
  | closes (ending : Ending) (hphase : m.phase = .closing ending) :
      Received reader m { m with source := m.source.woken, phase := .draining ending }
  | discards (ending : Ending) (hphase : m.phase = .draining ending) (item : Item)
      (rest : List Item) (hbuffer : m.buffer = item :: rest) :
      Received reader m { m with buffer := rest }
  | finishes (ending : Ending) (hphase : m.phase = .draining ending) (hbuffer : m.buffer = [])
      (hgone : m.source = .gone) : Received reader m { m with phase := .done ending }

theorem received_receive (reader : Reader σ) (m : Relay σ) :
    Received reader m (m.receive reader) := by
  unfold receive
  split
  · rename_i hphase
    split
    · rename_i hcancelled
      exact .sees (.inl hphase) hcancelled
    · rename_i hgoing
      exact .looks hphase (Bool.eq_false_iff.mpr hgoing)
  · rename_i hphase
    split
    · rename_i item rest hbuffer
      exact .takes hphase item rest hbuffer
    · rename_i hbuffer
      split
      · rename_i hgone
        exact .ends hphase hbuffer hgone
      · rename_i hthere
        split
        · rename_i hcancelled
          exact .sees (.inr hphase) hcancelled
        · rename_i hgoing
          exact .waits hphase hbuffer hthere (Bool.eq_false_iff.mpr hgoing)
  · rename_i item hphase
    cases hreceive : reader.receive m.state item with
    | mk s goesOn =>
        cases goesOn with
        | true => exact .goesOn item hphase s hreceive
        | false => exact .stops item hphase s hreceive
  · rename_i ending hphase
    exact .closes ending hphase
  · rename_i ending hphase
    split
    · rename_i item rest hbuffer
      exact .discards ending hphase item rest hbuffer
    · rename_i hbuffer
      split
      · rename_i hgone
        exact .finishes ending hphase hbuffer hgone
      · rename_i hthere
        exact .rests (.draining ending hphase hbuffer hthere)
  · rename_i hphase
    exact .rests (.waiting hphase)
  · rename_i ending hphase
    exact .rests (.done ending hphase)

end Relay

/-- How much a source has still to do before it waits or ends. -/
def SourcePhase.work : SourcePhase → Nat
  | .looking => 4
  | .sending => 3
  | .waiting => 2
  | .gone => 0

/-- How much a reader has still to do if nothing more comes. -/
def ReaderPhase.work : ReaderPhase → Nat
  | .looking => 7
  | .taking => 6
  | .waiting => 5
  | .handling _ => 10
  | .closing _ => 4
  | .draining _ => 1
  | .done _ => 0

theorem SourcePhase.work_woken (p : SourcePhase) : p.woken.work ≤ p.work + 2 := by
  cases p <;> decide

theorem SourcePhase.work_wokenIf (isCancelled : Bool) (p : SourcePhase) :
    (p.wokenIf isCancelled).work ≤ p.work + 2 := by
  cases isCancelled with
  | true => exact p.work_woken
  | false => exact Nat.le_add_right p.work 2

theorem ReaderPhase.work_woken (p : ReaderPhase) : p.woken.work ≤ p.work + 2 := by
  cases p <;> simp [woken, work]

namespace Relay

variable {σ : Type} {reader : Reader σ} {m m' : Relay σ}

/-- How much is left to be done. A move that wakes the other side pays for what that side does
again. -/
def work (m : Relay σ) : Nat :=
  11 * m.pending.length + m.source.work + 7 * m.buffer.length + m.phase.work +
    5 * (!m.isTold).toNat

theorem work_leave (m : Relay σ) : m.leave.work + m.source.work ≤ m.work + 2 := by
  have hwoken := m.phase.work_woken
  have hgone : SourcePhase.gone.work = 0 := rfl
  simp only [leave, work, hgone]
  omega

theorem Sent.eq_or_lt (h : Sent reader m m') :
    m' = m ∧ (m.source = .waiting ∨ m.source = .gone) ∨ m'.work < m.work := by
  have hwoken := m.phase.work_woken
  cases h with
  | rests hsource => exact .inl ⟨rfl, hsource⟩
  | looks hsource => exact .inr (by simp only [work, hsource, SourcePhase.work]; omega)
  | leaves hsource =>
      have hleave := m.work_leave
      refine .inr ?_
      rcases hsource with hsource | hsource
      · rw [hsource, SourcePhase.work] at hleave
        omega
      · rw [hsource, SourcePhase.work] at hleave
        omega
  | sends hsource _ item rest hpending =>
      refine .inr ?_
      simp only [work, hsource, hpending, SourcePhase.work, List.length_cons, List.length_append,
        List.length_nil]
      omega
  | waits hsource => exact .inr (by simp only [work, hsource, SourcePhase.work]; omega)

theorem Received.eq_or_lt (h : Received reader m m') :
    m' = m ∧ m.IsResting ∨ m'.work < m.work := by
  have hwoken := m.source.work_woken
  have hwokenIf := fun isCancelled => m.source.work_wokenIf isCancelled
  cases h with
  | rests hrests => exact .inl ⟨rfl, hrests⟩
  | sees hphase =>
      refine .inr ?_
      rcases hphase with hphase | hphase <;> simp only [work, hphase, ReaderPhase.work] <;> omega
  | looks hphase => exact .inr (by simp only [work, hphase, ReaderPhase.work]; omega)
  | takes hphase item rest hbuffer =>
      refine .inr ?_
      simp only [work, hphase, hbuffer, ReaderPhase.work, List.length_cons]
      omega
  | ends hphase => exact .inr (by simp only [work, hphase, ReaderPhase.work]; omega)
  | waits hphase => exact .inr (by simp only [work, hphase, ReaderPhase.work]; omega)
  | goesOn item hphase s =>
      have hsource := hwokenIf (reader.isCancelled s)
      exact .inr (by simp only [work, hphase, ReaderPhase.work]; omega)
  | stops item hphase s =>
      have hsource := hwokenIf (reader.isCancelled s)
      exact .inr (by simp only [work, hphase, ReaderPhase.work]; omega)
  | closes ending hphase => exact .inr (by simp only [work, hphase, ReaderPhase.work]; omega)
  | discards ending hphase item rest hbuffer =>
      exact .inr (by simp only [work, hbuffer, List.length_cons]; omega)
  | finishes ending hphase => exact .inr (by simp only [work, hphase, ReaderPhase.work]; omega)

theorem cancel_eq_or_lt (m : Relay σ) : m.cancel = m ∨ m.cancel.work < m.work := by
  have hsource := m.source.work_woken
  have hreader := m.phase.work_woken
  unfold cancel
  split
  · exact .inl rfl
  · rename_i htold
    rw [Bool.not_eq_true] at htold
    refine .inr ?_
    simp only [work, htold, Bool.not_false, Bool.not_true, Bool.toNat_true, Bool.toNat_false]
    omega

/-- Both sides move in turn until nothing is done any more. -/
def run (reader : Reader σ) (m : Relay σ) : Relay σ :=
  let next := (m.send reader).receive reader
  if next.work < m.work then run reader next else m
termination_by m.work

end Relay

end RepoCatalog
