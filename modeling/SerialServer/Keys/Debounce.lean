import SerialServer.Keys.Gpioinput

/-!
# SerialServer.Keys.Debounce

What the presses and releases of a key say about its levels.

The events of one key are the reports of the settling filter along that key's bit
(`keyEvents_ticks`), so what the filter does with runs of levels is what the scanner does
with keys: a level that is seen twice is reported once, a glitch of one sample is not
reported, and the keys do not influence each other.

What the scanner does not remember is what it reported last. A held key whose bit
glitches for one sample is pressed again when the bit has settled again, with no release
in between; `events_alternate_iff` says which histories do that.
-/

namespace SerialServer.Gpioinput

open Settle

/-! ### Ticks and reports -/

theorem keyEvents_flatten (n : Fin 6) (evss : List (List InputEvent)) :
    keyEvents n evss.flatten = (evss.map (keyEvents n)).flatten := by
  induction evss with
  | nil => rfl
  | cons evs evss ih =>
    rw [List.flatten_cons, List.map_cons, List.flatten_cons, ← ih]
    exact List.filterMap_append

theorem flatten_toList (rs : List (Option Bool)) :
    (rs.map fun r => (r.map not).toList).flatten = rs.reduceOption.map not := by
  induction rs with
  | nil => rfl
  | cons r rs ih => cases r <;> simp [ih]

/-- Tick by tick, the events of a key are the reports along its bit. -/
theorem keyEvents_ticks (n : Fin 6) (init : Word) (samples : List Word) :
    (ticks init samples).map (keyEvents n) =
      ((reports (levels n init samples)).drop 1).map fun r => (r.map not).toList :=
  keyEvents_ticksFrom n ⟨init, init, init⟩ samples

/-- All events of a key. -/
theorem keyEvents_all (n : Fin 6) (init : Word) (samples : List Word) :
    keyEvents n (ticks init samples).flatten =
      (reports (levels n init samples)).reduceOption.map not := by
  rw [keyEvents_flatten, keyEvents_ticks, flatten_toList]
  rfl

theorem value_of_mem_keyinput {g : Gpio} {ev : InputEvent} (h : ev ∈ keyinput g) :
    ev.value = 0 ∨ ev.value = 1 := by
  obtain ⟨n, -, hev⟩ := List.mem_flatMap.1 h
  have hkey : ∀ key press, ev ∈ keyevent key press → ev.value = 0 ∨ ev.value = 1 := by
    intro key press h
    unfold keyevent at h
    split at h <;> simp only [List.mem_cons, List.not_mem_nil, or_false] at h <;>
      rcases h with rfl | rfl <;> simp
  unfold key1 at hev
  dsimp only at hev
  split at hev
  · exact hkey _ _ hev
  · split at hev
    · exact hkey _ _ hev
    · cases hev

/-- Reading the events of a key off a scan loses nothing. -/
theorem mem_keyinput_iff (g : Gpio) (n : Fin 6) (pressed : Bool) :
    keyEvent n pressed ∈ keyinput g ↔ pressed ∈ keyEvents n (keyinput g) := by
  unfold keyEvents
  rw [List.mem_filterMap]
  constructor
  · intro h
    refine ⟨_, h, ?_⟩
    cases pressed <;> simp [keyEvent]
  · rintro ⟨ev, hev, heq⟩
    split at heq
    case isFalse => cases heq
    case isTrue hkey =>
      have hval := value_of_mem_keyinput hev
      obtain ⟨type, code, value⟩ := ev
      obtain ⟨rfl, rfl⟩ := hkey
      obtain rfl := Option.some.inj heq
      have hpress : keyEvent n (decide (value ≠ 0)) =
          ⟨evKey, (key6 n).setWidth 16, value⟩ := by
        rcases hval with rfl | rfl <;> rfl
      rw [hpress]
      exact hev

theorem exists_keyinput {g : Gpio} {samples : List Word} {evs : List InputEvent}
    (h : evs ∈ ticksFrom g samples) : ∃ g', evs = keyinput g' := by
  induction samples generalizing g with
  | nil => cases h
  | cons gpio samples ih =>
    rcases List.mem_cons.1 h with rfl | h
    · exact ⟨_, rfl⟩
    · exact ih h

/-! ### Levels and events -/

/-- What the events of key `n` say about the samples, the first sample of all (`init`) and
those of the ticks. A press is `true` and reports the level `false`. -/
structure TracksLevels (init : Word) (samples : List Word) (n : Fin 6) : Prop where
  /-- An event is written at a tick exactly when the level of the sample is there for the
  second time after the other one. -/
  emitted : ∀ t pressed, keyEvent n pressed ∈ (ticks init samples).getD t [] ↔
    SecondAt (levels n init samples) (!pressed) (t + 1)
  /-- A run of equal levels after another level yields one event, at two samples or more, or
  none, at one. -/
  run : ∀ pre b x k post, b ≠ x →
    levels n init samples = pre ++ b :: (List.replicate k x ++ post) →
      keyEvents n (((ticks init samples).drop pre.length).take k).flatten =
        if 2 ≤ k then [!x] else []
  /-- When the last two levels agree and another one came before, the last event is theirs. -/
  last : ∀ pre x, levels n init samples = pre ++ [x, x] → (∃ y ∈ pre, y ≠ x) →
    (keyEvents n (ticks init samples).flatten).getLast? = some (!x)
  /-- The other bits do not matter. -/
  isolated : ∀ init' samples', levels n init' samples' = levels n init samples →
    (ticks init' samples').map (keyEvents n) = (ticks init samples).map (keyEvents n)

theorem emitted_iff (init : Word) (samples : List Word) (n : Fin 6) (t : Nat) (pressed : Bool) :
    keyEvent n pressed ∈ (ticks init samples).getD t [] ↔
      SecondAt (levels n init samples) (!pressed) (t + 1) := by
  have htick := congrArg (·[t]?) (keyEvents_ticks n init samples)
  simp only [List.getElem?_map, List.getElem?_drop, Nat.add_comm 1 t] at htick
  rw [← reports_getElem?_iff, List.getD_eq_getElem?_getD]
  cases hevs : (ticks init samples)[t]? with
  | none =>
    rw [hevs, Option.map_none] at htick
    rw [Option.map_eq_none_iff.1 htick.symm]
    simp
  | some evs =>
    rw [hevs, Option.map_some] at htick
    obtain ⟨r, hr, hevents⟩ := Option.map_eq_some_iff.1 htick.symm
    obtain ⟨g, rfl⟩ := exists_keyinput (List.mem_of_getElem? hevs)
    rw [Option.getD_some, mem_keyinput_iff, hr, ← hevents]
    cases r <;> cases pressed <;> simp

/-- **The events of a key track its settled levels.** -/
theorem events_track_levels (init : Word) (samples : List Word) (n : Fin 6) :
    TracksLevels init samples n := by
  refine ⟨emitted_iff init samples n, ?_, ?_, ?_⟩
  · intro pre b x k post hb hlevels
    have hrun := reports_run pre post hb k
    rw [← hlevels] at hrun
    rw [keyEvents_flatten, List.map_take, List.map_drop, keyEvents_ticks, ← List.map_drop,
      ← List.map_take, flatten_toList, List.drop_drop, Nat.add_comm 1, hrun]
    split <;> rfl
  · rintro pre x hlevels ⟨y, hy, hne⟩
    rw [keyEvents_all, hlevels, List.getLast?_map, getLast_reports hy hne]
    rfl
  · intro init' samples' hlevels
    rw [keyEvents_ticks, keyEvents_ticks, hlevels]

/-! ### Alternation -/

/-- **Presses and releases of a key alternate** exactly when its bit does not bounce: when it
never leaves a settled level for single samples only and settles there again. -/
theorem events_alternate_iff (init : Word) (samples : List Word) (n : Fin 6) :
    Alternates (keyEvents n (ticks init samples).flatten) ↔
      ¬ Bounces (levels n init samples) := by
  rw [keyEvents_all, alternates_map_not, alternates_iff]

/-- A key that is held and glitches for one sample is pressed twice. -/
theorem not_events_alternate :
    ¬ ∀ (init : Word) (samples : List Word) (n : Fin 6),
      Alternates (keyEvents n (ticks init samples).flatten) := by
  intro h
  have htwice : keyEvents 0 (ticks 0x80000000 [0, 0, 0x80000000, 0, 0]).flatten =
      [true, true] := by decide
  have hglitch := h 0x80000000 [0, 0, 0x80000000, 0, 0] 0
  rw [htwice, alternates_iff_isChain] at hglitch
  revert hglitch
  decide

end SerialServer.Gpioinput
