import SerialServer.Core.Run

/-!
# SerialServer.Core.Pump

A pump between a source and a sink, of which each may have to wait for the other.

A pump takes a block from its source and sends it on at once, as far as the sink takes it.
What is left waits in `pending`, and the pump then watches the sink (`writer`) instead of the
source (`reader`). A preamble may have to be sent first, and urgent elements may be requested
at any time; both are sent before what waits. A preamble of no elements is given up by any
attempt to send something.

Nothing urgent and nothing of the preamble is ever lost (`Pump.step_keeps`). No data is lost
as long as the pump is `Calm`, that is, as it does not read while data waits
(`Pump.step_whole`). The only step that ends this is one that finishes the preamble, with
everything urgent sent, while data waits (`Pump.step_calm`): the sink has been watched for the
preamble. A system with pumps in it
takes over these rules when its steps are `Steps` of the pumps.
-/

namespace SerialServer

/-- What a sent element belongs to. -/
inductive Lane
  | preamble
  | urgent
  | data
  deriving Repr, DecidableEq

/-- Elements that are sent on one lane. -/
def Lane.on {α : Type*} (l : Lane) (xs : List α) : List (Lane × α) := xs.map fun x => (l, x)

/-- The elements of one lane. -/
def lane {α : Type*} (l : Lane) (sent : List (Lane × α)) : List α :=
  (sent.filter fun x => x.1 = l).map Prod.snd

section Lane

variable {α : Type*} (l : Lane)

@[simp] theorem lane_nil : lane l ([] : List (Lane × α)) = [] := rfl

@[simp] theorem lane_append (xs ys : List (Lane × α)) :
    lane l (xs ++ ys) = lane l xs ++ lane l ys := by
  rw [lane, List.filter_append, List.map_append]
  rfl

@[simp] theorem lane_on (xs : List α) : lane l (l.on xs) = xs := by
  induction xs with
  | nil => rfl
  | cons x xs ih =>
    rw [lane, Lane.on, List.map_cons, List.filter_cons_of_pos (by simp), List.map_cons]
    exact congrArg (x :: ·) ih

theorem lane_on_ne {l l' : Lane} (h : l' ≠ l) (xs : List α) : lane l (l'.on xs) = [] := by
  induction xs with
  | nil => rfl
  | cons x xs ih =>
    rw [lane, Lane.on, List.map_cons, List.filter_cons_of_neg (by simpa using h)]
    exact ih

end Lane

/-- A pump, with what it has sent, taken and been asked for so far. -/
structure Pump (α : Type*) where
  /-- What is left of the preamble. -/
  preamble : Option (List α)
  urgent : List α
  pending : List α
  reader : Bool
  writer : Bool
  sent : List (Lane × α)
  taken : List α
  requested : List α

namespace Pump

variable {α : Type*}

inductive Event (α : Type*)
  /-- The source has the block `xs`, and the sink takes the first `n` of it. -/
  | take (xs : List α) (n : Nat)
  | request (xs : List α)
  /-- The sink takes `urgent` urgent elements and `n` others. -/
  | flush (urgent n : Nat)
  deriving Repr, DecidableEq

/-- A block is taken. Whatever has been pending is overwritten. -/
def take (p : Pump α) (xs : List α) (n : Nat) : Pump α :=
  let q := { p with
    pending := xs.drop n
    sent := p.sent ++ Lane.data.on (xs.take n)
    taken := p.taken ++ xs }
  if (xs.drop n).isEmpty then q else { q with reader := false, writer := true }

def request (p : Pump α) (xs : List α) : Pump α :=
  { p with
    urgent := p.urgent ++ xs
    requested := p.requested ++ xs
    reader := false
    writer := true }

/-- Urgent elements are sent. -/
def flushUrgent (p : Pump α) (n : Nat) : Pump α :=
  { p with urgent := p.urgent.drop n, sent := p.sent ++ Lane.urgent.on (p.urgent.take n) }

/-- The preamble, and after it what is pending, is sent. At its end the source is watched
again. -/
def flushRest (p : Pump α) (n : Nat) : Pump α :=
  match p.preamble with
  | some xs =>
      let q := { p with sent := p.sent ++ Lane.preamble.on (xs.take n) }
      if (xs.drop n).isEmpty then { q with preamble := none, reader := true, writer := false }
      else { q with preamble := some (xs.drop n) }
  | none =>
      let q := { p with
        pending := p.pending.drop n
        sent := p.sent ++ Lane.data.on (p.pending.take n) }
      if (p.pending.drop n).isEmpty then { q with reader := true, writer := false } else q

/-- A preamble of no elements is given up. -/
def dropEmpty (p : Pump α) : Pump α :=
  match p.preamble with
  | some [] => { p with preamble := none }
  | _ => p

/-- The urgent elements come first. -/
def flush (p : Pump α) (urgent n : Nat) : Pump α :=
  let q := p.flushUrgent urgent
  if q.urgent.isEmpty then q.flushRest n else q.dropEmpty

/-- An event. The source and the sink are looked at only while they are watched. -/
def step (p : Pump α) : Event α → Pump α
  | .take xs n => if p.reader then p.take xs n else p
  | .request xs => p.request xs
  | .flush urgent n => if p.writer then p.flush urgent n else p

/-- The elements that have been sent, on whatever lane. -/
def received (p : Pump α) : List α := p.sent.map Prod.snd

@[simp] theorem map_snd_on (l : Lane) (xs : List α) : (l.on xs).map Prod.snd = xs := by
  rw [Lane.on, List.map_map]
  exact List.map_id xs

/-- A block is taken, apart from what is watched then. -/
theorem take_fields (p : Pump α) (xs : List α) (n : Nat) :
    (p.take xs n).received = p.received ++ xs.take n ∧ (p.take xs n).pending = xs.drop n ∧
      (p.take xs n).urgent = p.urgent ∧ (p.take xs n).preamble = p.preamble := by
  have hreceived : (p.sent ++ Lane.data.on (xs.take n)).map Prod.snd = p.received ++ xs.take n := by
    rw [List.map_append, map_snd_on]
    rfl
  rw [take]
  dsimp only
  split
  · exact ⟨hreceived, rfl, rfl, rfl⟩
  · exact ⟨hreceived, rfl, rfl, rfl⟩

theorem flushUrgent_nil {p : Pump α} (h : p.urgent = []) (n : Nat) : p.flushUrgent n = p := by
  cases p
  subst h
  rw [flushUrgent]
  simp [Lane.on]

/-- Giving up an empty preamble changes nothing else. -/
theorem dropEmpty_eq (p : Pump α) : p.dropEmpty = { p with preamble := p.dropEmpty.preamble } ∧
    p.dropEmpty.preamble.getD [] = p.preamble.getD [] := by
  rw [dropEmpty]
  split
  · next hpre => exact ⟨rfl, by rw [hpre]; rfl⟩
  · exact ⟨rfl, rfl⟩

/-- There is none afterwards if there is none before. -/
theorem dropEmpty_preamble {p : Pump α} (h : p.dropEmpty.preamble ≠ none) : p.preamble ≠ none := by
  intro hnone
  rw [dropEmpty, hnone] at h
  exact h hnone

/-! ### What arrives -/

/-- Nothing that is urgent is lost, and nothing of the preamble. -/
structure Keeps (p q : Pump α) : Prop where
  urgent : lane .urgent p.sent ++ p.urgent = p.requested →
    lane .urgent q.sent ++ q.urgent = q.requested
  preamble : lane .preamble q.sent ++ q.preamble.getD [] =
    lane .preamble p.sent ++ p.preamble.getD []

theorem Keeps.refl (p : Pump α) : Keeps p p := ⟨id, rfl⟩

theorem Keeps.trans {p q r : Pump α} (h : Keeps p q) (h' : Keeps q r) : Keeps p r :=
  ⟨fun hp => h'.urgent (h.urgent hp), h'.preamble.trans h.preamble⟩

/-- Sending data does neither. -/
theorem keeps_data {p q : Pump α} {xs : List α} (hsent : q.sent = p.sent ++ Lane.data.on xs)
    (hurgent : q.urgent = p.urgent) (hrequested : q.requested = p.requested)
    (hpreamble : q.preamble = p.preamble) : Keeps p q := by
  have hlane : ∀ l, Lane.data ≠ l → lane l q.sent = lane l p.sent := by
    intro l hl
    rw [hsent, lane_append, lane_on_ne hl, List.append_nil]
  refine ⟨fun h => ?_, ?_⟩
  · rw [hlane _ (by decide), hurgent, hrequested]
    exact h
  · rw [hlane _ (by decide), hpreamble]

theorem take_keeps (p : Pump α) (xs : List α) (n : Nat) : Keeps p (p.take xs n) := by
  rw [take]
  dsimp only
  split
  · exact keeps_data rfl rfl rfl rfl
  · exact keeps_data rfl rfl rfl rfl

theorem request_keeps (p : Pump α) (xs : List α) : Keeps p (p.request xs) := by
  refine ⟨fun h => ?_, rfl⟩
  rw [request, ← List.append_assoc, h]

theorem flushUrgent_keeps (p : Pump α) (n : Nat) : Keeps p (p.flushUrgent n) := by
  rw [flushUrgent]
  refine ⟨fun h => ?_, ?_⟩
  · rw [lane_append, lane_on, List.append_assoc, List.take_append_drop]
    exact h
  · rw [lane_append, lane_on_ne (by decide), List.append_nil]

theorem flushRest_keeps (p : Pump α) (n : Nat) : Keeps p (p.flushRest n) := by
  rw [flushRest]
  cases hpre : p.preamble with
  | none =>
    dsimp only
    split
    · exact keeps_data rfl rfl rfl hpre.symm
    · exact keeps_data rfl rfl rfl hpre.symm
  | some xs =>
    have hurgent : ∀ q : Pump α, q.sent = p.sent ++ Lane.preamble.on (xs.take n) →
        q.urgent = p.urgent → q.requested = p.requested →
        q.preamble.getD [] = xs.drop n → Keeps p q := by
      intro q hsent hurgent hrequested hpreamble
      refine ⟨fun h => ?_, ?_⟩
      · rw [hsent, hurgent, hrequested, lane_append, lane_on_ne (by decide), List.append_nil]
        exact h
      · rw [hsent, hpreamble, hpre, lane_append, lane_on, List.append_assoc,
          List.take_append_drop]
        rfl
    dsimp only
    split
    · next hrest => exact hurgent _ rfl rfl rfl (List.isEmpty_iff.1 hrest).symm
    · exact hurgent _ rfl rfl rfl rfl

theorem dropEmpty_keeps (p : Pump α) : Keeps p p.dropEmpty := by
  obtain ⟨heq, hpreamble⟩ := p.dropEmpty_eq
  refine ⟨fun h => ?_, ?_⟩
  · rw [heq]
    exact h
  · rw [hpreamble, heq]

theorem flush_keeps (p : Pump α) (urgent n : Nat) : Keeps p (p.flush urgent n) := by
  rw [flush]
  split
  · exact (flushUrgent_keeps ..).trans (flushRest_keeps ..)
  · exact (flushUrgent_keeps ..).trans (dropEmpty_keeps _)

theorem step_keeps (p : Pump α) (ev : Event α) : Keeps p (p.step ev) := by
  cases ev with
  | take xs n =>
    rw [step]
    split
    · exact take_keeps ..
    · exact .refl p
  | request xs => exact request_keeps ..
  | flush urgent n =>
    rw [step]
    split
    · exact flush_keeps ..
    · exact .refl p

/-! ### Watching -/

/-- While data waits, the sink is watched and not the source. -/
def Calm (p : Pump α) : Prop := p.pending ≠ [] → p.reader = false ∧ p.writer = true

/-- Between `p` and `q` the preamble is finished while data waits, and nothing urgent is left. -/
def FinishesEarly (p q : Pump α) : Prop :=
  p.preamble ≠ none ∧ q.preamble = none ∧ q.urgent = [] ∧ p.pending ≠ []

theorem take_calm (p : Pump α) (xs : List α) (n : Nat) : (p.take xs n).Calm := by
  rw [take]
  dsimp only
  split
  · next hrest => exact fun h => absurd (List.isEmpty_iff.1 hrest) h
  · exact fun _ => ⟨rfl, rfl⟩

theorem flushRest_calm {p : Pump α} (hp : p.Calm) (hurgent : p.urgent = []) (n : Nat) :
    (p.flushRest n).Calm ↔ ¬ p.FinishesEarly (p.flushRest n) := by
  rw [flushRest]
  cases hpre : p.preamble with
  | some xs =>
    dsimp only
    split
    · constructor
      · intro hcalm h
        exact absurd (hcalm h.2.2.2).1 (by simp)
      · intro h hpending
        exact absurd ⟨by rw [hpre]; exact Option.some_ne_none xs, rfl, hurgent, hpending⟩ h
    · exact iff_of_true hp fun h => absurd h.2.1 (Option.some_ne_none _)
  | none =>
    dsimp only
    refine iff_of_true ?_ fun h => h.1 hpre
    split
    · next hrest => exact fun h => absurd (List.isEmpty_iff.1 hrest) h
    · intro h
      refine hp fun hnil => h ?_
      rw [hnil, List.drop_nil]

/-- **What disturbs a pump**: finishing the preamble, with nothing urgent left, while data waits,
and nothing else. -/
theorem step_calm {p : Pump α} (hp : p.Calm) (ev : Event α) :
    (p.step ev).Calm ↔ ¬ p.FinishesEarly (p.step ev) := by
  -- Where the preamble stays, there is nothing to disturb.
  have hstay : ∀ q : Pump α, q.Calm → q.preamble = p.preamble →
      (q.Calm ↔ ¬ p.FinishesEarly q) := fun q hq hpre =>
    iff_of_true hq fun h => h.1 (hpre.symm.trans h.2.1)
  cases ev with
  | take xs n =>
    rw [step]
    split
    · refine hstay _ (take_calm p xs n) ?_
      rw [take]
      dsimp only
      split
      · rfl
      · rfl
    · exact hstay p hp rfl
  | request xs => exact hstay _ (fun _ => ⟨rfl, rfl⟩) rfl
  | flush urgent n =>
    rw [step]
    split
    · rw [flush]
      have hcalm : (p.flushUrgent urgent).Calm := hp
      split
      · next hrest => exact flushRest_calm hcalm (List.isEmpty_iff.1 hrest) n
      · next hrest =>
        -- What is watched stays as it is.
        obtain ⟨heq, -⟩ := (p.flushUrgent urgent).dropEmpty_eq
        rw [heq]
        exact iff_of_true hcalm fun h => hrest (List.isEmpty_iff.2 h.2.2.1)
    · exact hstay p hp rfl

/-- A pump that takes nothing before its preamble is sent. -/
def Held (p : Pump α) : Prop := p.preamble ≠ none → p.reader = false ∧ p.pending = []

theorem step_held {p : Pump α} (hp : p.Held) (ev : Event α) : (p.step ev).Held := by
  cases ev with
  | take xs n =>
    rw [step]
    split
    · next hreader =>
      have hnone : p.preamble = none := by
        by_contra hsome
        rw [(hp hsome).1] at hreader
        cases hreader
      rw [take]
      dsimp only
      split
      · exact fun h => absurd hnone h
      · exact fun h => absurd hnone h
    · exact hp
  | request xs => exact fun h => ⟨rfl, (hp h).2⟩
  | flush urgent n =>
    have hurgent : (p.flushUrgent urgent).Held := hp
    rw [step]
    split
    · rw [flush]
      split
      · rw [flushRest]
        cases hpre : (p.flushUrgent urgent).preamble with
        | some xs =>
          have hsome := hurgent (by rw [hpre]; exact Option.some_ne_none xs)
          dsimp only
          split
          · exact fun h => absurd rfl h
          · exact fun _ => hsome
        | none =>
          dsimp only
          split
          · exact fun h => absurd rfl h
          · exact fun h => absurd rfl h
      · obtain ⟨heq, -⟩ := (p.flushUrgent urgent).dropEmpty_eq
        intro h
        rw [heq]
        exact hurgent (dropEmpty_preamble h)
    · exact hp

/-- It does not finish its preamble while data waits, as none does. -/
theorem Held.not_finishesEarly {p : Pump α} (hp : p.Held) (q : Pump α) : ¬ p.FinishesEarly q :=
  fun h => h.2.2.2 (hp h.1).2

/-! ### The data -/

/-- The data that has been sent, and what waits. -/
def passed (p : Pump α) : List α := lane .data p.sent ++ p.pending

/-- Nothing has been lost. -/
def Whole (p : Pump α) : Prop := p.passed = p.taken

theorem take_passed (p : Pump α) (xs : List α) (n : Nat) :
    (p.take xs n).passed = lane .data p.sent ++ xs ∧ (p.take xs n).taken = p.taken ++ xs := by
  have hpassed : lane .data (p.sent ++ Lane.data.on (xs.take n)) ++ xs.drop n =
      lane .data p.sent ++ xs := by
    rw [lane_append, lane_on, List.append_assoc, List.take_append_drop]
  rw [take]
  dsimp only
  split
  · exact ⟨hpassed, rfl⟩
  · exact ⟨hpassed, rfl⟩

theorem flushRest_passed (p : Pump α) (n : Nat) :
    (p.flushRest n).passed = p.passed ∧ (p.flushRest n).taken = p.taken := by
  rw [flushRest]
  cases p.preamble with
  | some xs =>
    have hpassed : lane .data (p.sent ++ Lane.preamble.on (xs.take n)) ++ p.pending = p.passed := by
      rw [lane_append, lane_on_ne (by decide), List.append_nil]
      rfl
    dsimp only
    split
    · exact ⟨hpassed, rfl⟩
    · exact ⟨hpassed, rfl⟩
  | none =>
    have hpassed : lane .data (p.sent ++ Lane.data.on (p.pending.take n)) ++ p.pending.drop n =
        p.passed := by
      rw [lane_append, lane_on, List.append_assoc, List.take_append_drop]
      rfl
    dsimp only
    split
    · exact ⟨hpassed, rfl⟩
    · exact ⟨hpassed, rfl⟩

theorem flush_passed (p : Pump α) (urgent n : Nat) :
    (p.flush urgent n).passed = p.passed ∧ (p.flush urgent n).taken = p.taken := by
  have hurgent : (p.flushUrgent urgent).passed = p.passed := by
    rw [flushUrgent, passed, lane_append, lane_on_ne (by decide), List.append_nil]
    rfl
  rw [flush]
  split
  · obtain ⟨hpassed, htaken⟩ := flushRest_passed (p.flushUrgent urgent) n
    exact ⟨hpassed.trans hurgent, htaken⟩
  · obtain ⟨heq, -⟩ := (p.flushUrgent urgent).dropEmpty_eq
    rw [heq]
    exact ⟨hurgent, rfl⟩

/-- **A calm pump loses nothing.** -/
theorem step_whole {p : Pump α} (hcalm : p.Calm) (hp : p.Whole) (ev : Event α) :
    (p.step ev).Whole := by
  cases ev with
  | take xs n =>
    rw [step]
    split
    · next hreader =>
      have hempty : p.pending = [] := by
        by_contra hpending
        rw [(hcalm hpending).1] at hreader
        cases hreader
      obtain ⟨hpassed, htaken⟩ := take_passed p xs n
      rw [Whole, hpassed, htaken, ← hp, passed, hempty, List.append_nil]
    · exact hp
  | request xs => exact hp
  | flush urgent n =>
    rw [step]
    split
    · obtain ⟨hpassed, htaken⟩ := flush_passed p urgent n
      rw [Whole, hpassed, htaken]
      exact hp
    · exact hp

/-- What is sent has been taken, in this order, though something may be missing. -/
theorem step_sublist {p : Pump α} (hp : p.passed.Sublist p.taken) (ev : Event α) :
    (p.step ev).passed.Sublist (p.step ev).taken := by
  cases ev with
  | take xs n =>
    rw [step]
    split
    · obtain ⟨hpassed, htaken⟩ := take_passed p xs n
      have hsent : (lane .data p.sent).Sublist p.taken :=
        (List.sublist_append_left _ _).trans hp
      rw [hpassed, htaken]
      exact hsent.append (List.Sublist.refl xs)
    · exact hp
  | request xs => exact hp
  | flush urgent n =>
    rw [step]
    split
    · obtain ⟨hpassed, htaken⟩ := flush_passed p urgent n
      rw [hpassed, htaken]
      exact hp
    · exact hp

/-! ### Urgent elements -/

/-- As long as something urgent or a preamble waits, the sink is watched; while something
urgent waits, the source is not. -/
structure Alert (p : Pump α) : Prop where
  urgent : p.urgent ≠ [] → p.reader = false ∧ p.writer = true
  preamble : p.preamble ≠ none → p.writer = true

theorem step_alert {p : Pump α} (hp : p.Alert) (ev : Event α) : (p.step ev).Alert := by
  cases ev with
  | take xs n =>
    rw [step]
    split
    · next hreader =>
      rw [take]
      dsimp only
      split
      · exact ⟨hp.urgent, hp.preamble⟩
      · exact ⟨fun _ => ⟨rfl, rfl⟩, fun _ => rfl⟩
    · exact hp
  | request xs => exact ⟨fun _ => ⟨rfl, rfl⟩, fun _ => rfl⟩
  | flush urgent n =>
    rw [step]
    split
    · next hwriter =>
      rw [flush]
      split
      · next hrest =>
        have hnil : (p.flushUrgent urgent).urgent = [] := List.isEmpty_iff.1 hrest
        rw [flushRest]
        cases hpre : (p.flushUrgent urgent).preamble with
        | some xs =>
          dsimp only
          split
          · exact ⟨fun h => absurd hnil h, fun h => absurd rfl h⟩
          · exact ⟨fun h => absurd hnil h, fun _ => hwriter⟩
        | none =>
          dsimp only
          split
          · exact ⟨fun h => absurd hnil h, fun h => absurd rfl h⟩
          · exact ⟨fun h => absurd hnil h, fun h => absurd rfl h⟩
      · next hrest =>
        have hne : p.urgent ≠ [] := by
          intro hnil
          rw [flushUrgent, hnil, List.drop_nil] at hrest
          exact hrest rfl
        obtain ⟨heq, -⟩ := (p.flushUrgent urgent).dropEmpty_eq
        rw [heq]
        exact ⟨fun _ => hp.urgent hne, fun _ => hwriter⟩
    · exact hp

/-! ### Systems with a pump in them -/

/-- What a step of a system may do to a pump in it. -/
def Steps (p q : Pump α) : Prop := q = p ∨ ∃ ev, q = p.step ev

namespace Steps

variable {p q : Pump α}

theorem keeps (h : Steps p q) : Keeps p q := by
  rcases h with rfl | ⟨ev, rfl⟩
  · exact .refl q
  · exact step_keeps p ev

theorem calm (h : Steps p q) (hp : p.Calm) : q.Calm ↔ ¬ p.FinishesEarly q := by
  rcases h with rfl | ⟨ev, rfl⟩
  · exact iff_of_true hp fun h => h.1 h.2.1
  · exact step_calm hp ev

theorem held (h : Steps p q) (hp : p.Held) : q.Held := by
  rcases h with rfl | ⟨ev, rfl⟩
  · exact hp
  · exact step_held hp ev

theorem whole (h : Steps p q) (hcalm : p.Calm) (hp : p.Whole) : q.Whole := by
  rcases h with rfl | ⟨ev, rfl⟩
  · exact hp
  · exact step_whole hcalm hp ev

theorem sublist (h : Steps p q) (hp : p.passed.Sublist p.taken) : q.passed.Sublist q.taken := by
  rcases h with rfl | ⟨ev, rfl⟩
  · exact hp
  · exact step_sublist hp ev

theorem alert (h : Steps p q) (hp : p.Alert) : q.Alert := by
  rcases h with rfl | ⟨ev, rfl⟩
  · exact hp
  · exact step_alert hp ev

end Steps

end Pump

end SerialServer
