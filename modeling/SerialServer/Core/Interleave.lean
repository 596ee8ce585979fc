import Mathlib.Logic.Function.Basic
import SerialServer.Core.Run

/-!
# SerialServer.Core.Interleave

Threads that share a state and send messages.

A `Code σ o α` is a finite piece of straight-line or branching code that works on a shared
state `σ`, sends messages `o` and returns an `α`. Each access to the shared state and each
send is a step of its own, so that other threads may run between any two of them; what the
code does with its locals takes no step. `alone` runs a code without interruption.

`Yields t Q` says that `t`, whatever the shared state has become before each of its steps,
sends messages and returns a result that `Q` accepts. Its rules follow the code. The
threads of a `System` take turns in any order, each running one code after another; what
the codes yield, the threads have sent in every run (`run_kept`).
-/

namespace SerialServer

/-- Code that works on a shared state step by step. -/
inductive Code (σ o α : Type)
  | ret (a : α)
  /-- A step: change the state, send, and go on with what the state was. -/
  | act (f : σ → σ) (out : List o) (next : σ → Code σ o α)

/-- What code that has run alone leaves: the state, what it has sent, and its result. -/
structure Done (σ o α : Type) where
  state : σ
  out : List o
  result : α

/-- What is left is known when its three parts are. -/
theorem Done.eq_mk {σ o α : Type} {d : Done σ o α} {state : σ} {out : List o} {result : α}
    (hstate : d.state = state) (hout : d.out = out) (hresult : d.result = result) :
    d = ⟨state, out, result⟩ := by
  subst hstate hout hresult
  rfl

namespace Code

variable {σ o α β γ : Type}

/-! ### Writing code -/

def bind : Code σ o α → (α → Code σ o β) → Code σ o β
  | .ret a, k => k a
  | .act f out next, k => .act f out fun s => (next s).bind k

instance : Monad (Code σ o) where
  pure := .ret
  bind := .bind

/-- Read the shared state. -/
def get (g : σ → α) : Code σ o α := .act id [] fun s => .ret (g s)

/-- Change the shared state. -/
def modify (f : σ → σ) : Code σ o Unit := .act f [] fun _ => .ret ()

/-- Send a message. -/
def send (x : o) : Code σ o Unit := .act id [x] fun _ => .ret ()

/-! ### Running alone -/

/-- Run the code with nothing else in between. -/
def alone : Code σ o α → σ → Done σ o α
  | .ret a, s => ⟨s, [], a⟩
  | .act f out next, s =>
      let r := (next s).alone (f s)
      ⟨r.state, out ++ r.out, r.result⟩

@[simp] theorem alone_pure (a : α) (s : σ) : (pure a : Code σ o α).alone s = ⟨s, [], a⟩ := rfl

@[simp] theorem alone_get (g : σ → α) (s : σ) :
    (get g : Code σ o α).alone s = ⟨s, [], g s⟩ := rfl

@[simp] theorem alone_bind (t : Code σ o α) (k : α → Code σ o β) (s : σ) :
    (t >>= k).alone s =
      ⟨((k (t.alone s).result).alone (t.alone s).state).state,
        (t.alone s).out ++ ((k (t.alone s).result).alone (t.alone s).state).out,
        ((k (t.alone s).result).alone (t.alone s).state).result⟩ := by
  induction t generalizing s with
  | ret a => rfl
  | act f out next ih =>
    have h := ih s (f s)
    change (((next s).bind k).alone (f s)) = _ at h
    change (⟨_, out ++ _, _⟩ : Done σ o β) = _
    rw [h]
    simp [alone]

/-- A loop run alone follows a pure loop, if each of its turns sends nothing and keeps the
relation between the state, the accumulator and the pure accumulator. -/
theorem alone_foldlM (body : α → β → Code σ o α) {g : γ → β → γ} {R : σ → α → γ → Prop}
    (h : ∀ s a c b, R s a c → ((body a b).alone s).out = [] ∧
      R ((body a b).alone s).state ((body a b).alone s).result (g c b))
    (l : List β) {s : σ} {a : α} {c : γ} (hR : R s a c) :
    ((l.foldlM body a).alone s).out = [] ∧
      R ((l.foldlM body a).alone s).state ((l.foldlM body a).alone s).result (l.foldl g c) := by
  induction l generalizing s a c with
  | nil => exact ⟨rfl, hR⟩
  | cons b l ih =>
    obtain ⟨hout, hnext⟩ := h s a c b hR
    obtain ⟨hrest, hR'⟩ := ih hnext
    rw [List.foldlM_cons, alone_bind]
    exact ⟨by rw [hout, hrest, List.append_nil], hR'⟩

/-! ### What code yields among other threads -/

/-- Whatever the state before each step, `Q` holds of what is sent and of the result. -/
def Yields : Code σ o α → (List o → α → Prop) → Prop
  | .ret a, Q => Q [] a
  | .act _ out next, Q => ∀ s, (next s).Yields fun tr a => Q (out ++ tr) a

/-- The code sends nothing, and `P` holds of its result. -/
def Silent (t : Code σ o α) (P : α → Prop) : Prop := t.Yields fun tr a => tr = [] ∧ P a

namespace Yields

variable {t : Code σ o α} {Q Q' : List o → α → Prop}

theorem mono (h : t.Yields Q) (hQ : ∀ tr a, Q tr a → Q' tr a) : t.Yields Q' := by
  induction t generalizing Q Q' with
  | ret a => exact hQ _ _ h
  | act f out next ih => exact fun s => ih s (h s) fun tr a => hQ (out ++ tr) a

theorem bind {k : α → Code σ o β} {Q : List o → β → Prop}
    (h : t.Yields fun tr a => (k a).Yields fun tr' b => Q (tr ++ tr') b) :
    (t >>= k).Yields Q := by
  induction t generalizing Q with
  | ret a => exact h
  | act f out next ih =>
    intro s
    refine ih s ((h s).mono fun tr a hk => hk.mono fun tr' b hQ => ?_)
    rwa [← List.append_assoc]

theorem get {g : σ → α} (h : ∀ a, Q [] a) : (Code.get g).Yields Q := fun s => h (g s)

theorem send {x : o} {Q : List o → Unit → Prop} (h : Q [x] ()) :
    (Code.send (σ := σ) x).Yields Q := fun _ => h

/-- What `t` yields among other threads it yields alone. -/
theorem of_alone (h : t.Yields Q) (s : σ) : Q (t.alone s).out (t.alone s).result := by
  induction t generalizing Q s with
  | ret a => exact h
  | act f out next ih => exact ih s (h s) (f s)

end Yields

namespace Silent

variable {t : Code σ o α} {P P' : α → Prop}

theorem mono (h : t.Silent P) (hP : ∀ a, P a → P' a) : t.Silent P' :=
  Yields.mono h fun _ a ha => ⟨ha.1, hP a ha.2⟩

theorem yields {Q : List o → α → Prop} (h : t.Silent P) (hQ : ∀ a, P a → Q [] a) :
    t.Yields Q := by
  refine Yields.mono h ?_
  rintro tr a ⟨rfl, ha⟩
  exact hQ a ha

/-- Code that follows silent code sends what it sends itself. -/
theorem bind_yields {k : α → Code σ o β} {Q : List o → β → Prop} (h : t.Silent P)
    (hk : ∀ a, P a → (k a).Yields Q) : (t >>= k).Yields Q :=
  Yields.bind (h.yields hk)

theorem bind {k : α → Code σ o β} {P' : β → Prop} (h : t.Silent P)
    (hk : ∀ a, P a → (k a).Silent P') : (t >>= k).Silent P' :=
  h.bind_yields hk

theorem pure {a : α} (h : P a) : (Pure.pure a : Code σ o α).Silent P := ⟨rfl, h⟩

theorem get (g : σ → α) : (Code.get g : Code σ o α).Silent fun _ => True :=
  fun _ => ⟨rfl, trivial⟩

theorem modify (f : σ → σ) : (Code.modify f : Code σ o Unit).Silent fun _ => True :=
  fun _ => ⟨rfl, trivial⟩

/-- The rule of loops: an invariant `I` of the elements consumed and the accumulator. -/
theorem foldlM (body : α → β → Code σ o α) {I : List β → α → Prop} {a : α} {l : List β}
    (h0 : I [] a)
    (h : ∀ pre b post, l = pre ++ b :: post → ∀ a, I pre a → (body a b).Silent (I (pre ++ [b]))) :
    (l.foldlM body a : Code σ o α).Silent (I l) := by
  -- The induction is on what is left of the list, over what has been consumed of it.
  suffices hs : ∀ post pre a, l = pre ++ post → I pre a →
      (post.foldlM body a : Code σ o α).Silent (I l) from hs l [] a rfl h0
  intro post
  induction post with
  | nil =>
    rintro pre a hl hI
    rw [List.append_nil] at hl
    exact Silent.pure (hl ▸ hI)
  | cons b post ih =>
    intro pre a hl hI
    rw [List.foldlM_cons]
    exact (h pre b post hl a hI).bind fun a' ha' => ih (pre ++ [b]) a' (by simp [hl]) ha'

end Silent

end Code

/-! ### Systems of threads -/

namespace Interleave

variable {ι σ o : Type} [DecidableEq ι] {L In : ι → Type}

/-- A turn a thread has finished. -/
structure Turn (L In o : Type) where
  before : L
  input : In
  out : List o

/-- Where a thread is: between two turns, or in one. -/
inductive Phase (L In σ o : Type)
  | idle (l : L)
  | busy (before : L) (input : In) (out : List o) (rest : Code σ o L)

/-- What the turn a thread is in has sent so far. -/
def Phase.out {L In σ o : Type} : Phase L In σ o → List o
  | .idle _ => []
  | .busy _ _ out _ => out

/-- The input of the turn a thread is in. -/
def Phase.input {L In σ o : Type} : Phase L In σ o → List In
  | .idle _ => []
  | .busy _ input _ _ => [input]

/-- A system: the shared state, the threads, the inputs of the turns each has begun, the
turns it has finished, and all that was sent, by whom. -/
structure System (σ o : Type) (L In : ι → Type) where
  shared : σ
  phase : ∀ i, Phase (L i) (In i) σ o
  begun : ∀ i, List (In i)
  done : ∀ i, List (Turn (L i) (In i) o)
  sent : List (ι × o)

/-- What can happen: a thread that is between turns begins one, or a thread takes a step. -/
inductive Event (In : ι → Type)
  | begin (i : ι) (input : In i)
  | step (i : ι)

variable (turn : ∀ i, L i → In i → Code σ o (L i))

def System.begin (y : System σ o L In) (i : ι) (input : In i) : System σ o L In :=
  match y.phase i with
  | .idle l =>
      { y with
        phase := Function.update y.phase i (.busy l input [] (turn i l input))
        begun := Function.update y.begun i (y.begun i ++ [input]) }
  | .busy .. => y

def System.step (y : System σ o L In) (i : ι) : System σ o L In :=
  match y.phase i with
  | .idle _ => y
  | .busy before input out (.ret l) =>
      { y with
        phase := Function.update y.phase i (.idle l)
        done := Function.update y.done i (y.done i ++ [⟨before, input, out⟩]) }
  | .busy before input out (.act f out' next) =>
      { y with
        shared := f y.shared
        phase := Function.update y.phase i (.busy before input (out ++ out') (next y.shared))
        sent := y.sent ++ out'.map fun x => (i, x) }

def next (y : System σ o L In) : Event In → System σ o L In
  | .begin i input => y.begin turn i input
  | .step i => y.step i

theorem begin_idle {turn : ∀ i, L i → In i → Code σ o (L i)} {y : System σ o L In} {i : ι} {l : L i}
    {input : In i} (hp : y.phase i = .idle l) : y.begin turn i input =
      { y with
        phase := Function.update y.phase i (.busy l input [] (turn i l input))
        begun := Function.update y.begun i (y.begun i ++ [input]) } := by
  rw [System.begin, hp]

theorem begin_busy {turn : ∀ i, L i → In i → Code σ o (L i)} {y : System σ o L In} {i : ι}
    {before : L i} {input input' : In i} {out : List o} {rest : Code σ o (L i)}
    (hp : y.phase i = .busy before input' out rest) : y.begin turn i input = y := by
  rw [System.begin, hp]

theorem step_idle {y : System σ o L In} {i : ι} {l : L i} (hp : y.phase i = .idle l) :
    y.step i = y := by
  rw [System.step, hp]

theorem step_ret {y : System σ o L In} {i : ι} {before l : L i} {input : In i} {out : List o}
    (hp : y.phase i = .busy before input out (.ret l)) : y.step i =
      { y with
        phase := Function.update y.phase i (.idle l)
        done := Function.update y.done i (y.done i ++ [⟨before, input, out⟩]) } := by
  rw [System.step, hp]

theorem step_act {y : System σ o L In} {i : ι} {before : L i} {input : In i} {out out' : List o}
    {f : σ → σ} {rest : σ → Code σ o (L i)}
    (hp : y.phase i = .busy before input out (.act f out' rest)) : y.step i =
      { y with
        shared := f y.shared
        phase := Function.update y.phase i (.busy before input (out ++ out') (rest y.shared))
        sent := y.sent ++ out'.map fun x => (i, x) } := by
  rw [System.step, hp]

/-- Threads between turns that have sent nothing. -/
def start (s : σ) (l : ∀ i, L i) : System σ o L In := 
  ⟨s, fun i => .idle (l i), fun _ => [], fun _ => [], []⟩

/-- What thread `i` has sent. -/
def System.sentBy (y : System σ o L In) (i : ι) : List o :=
  (y.sent.filter fun x => x.1 = i).map Prod.snd

/-- What was sent, by whomever. -/
def System.messages (y : System σ o L In) : List o := y.sent.map Prod.snd

/-- What holds in every run, `Post i` being what the turns of thread `i` yield: a thread has
finished the turns it has begun, but for the one it is in; it has sent what they have sent,
in their order; and that one can still yield what it must. -/
structure Kept (Post : ∀ i, L i → In i → List o → Prop) (y : System σ o L In) : Prop where
  begun : ∀ i, y.begun i = (y.done i).map Turn.input ++ (y.phase i).input
  sent : ∀ i, y.sentBy i = (y.done i).flatMap Turn.out ++ (y.phase i).out
  done : ∀ i, ∀ t ∈ y.done i, Post i t.before t.input t.out
  busy : ∀ i before input out rest, y.phase i = .busy before input out rest →
    rest.Yields fun tr _ => Post i before input (out ++ tr)

variable {turn} {Post : ∀ i, L i → In i → List o → Prop} {y : System σ o L In}

theorem kept_start (s : σ) (l : ∀ i, L i) : Kept Post (start s l : System σ o L In) where
  begun _ := rfl
  sent _ := rfl
  done _ _ ht := absurd ht List.not_mem_nil
  busy _ _ _ _ _ h := nomatch h

theorem kept_begin (hturn : ∀ i l input, (turn i l input).Yields fun tr _ => Post i l input tr)
    (h : Kept Post y) (i : ι) (input : In i) : Kept Post (y.begin turn i input) := by
  cases hp : y.phase i with
  | busy before input' out rest => rwa [begin_busy hp]
  | idle l =>
    rw [begin_idle hp]
    refine ⟨fun j => ?_, fun j => ?_, h.done, fun j => ?_⟩
    · have hbegun := h.begun j
      dsimp only
      by_cases hj : j = i
      · subst hj
        rw [hp] at hbegun
        rw [Function.update_self, Function.update_self, hbegun]
        simp [Phase.input]
      · rw [Function.update_of_ne hj, Function.update_of_ne hj, hbegun]
    · refine (h.sent j).trans ?_
      dsimp only
      by_cases hj : j = i
      · subst hj
        rw [Function.update_self, hp]
        rfl
      · rw [Function.update_of_ne hj]
    · intro before input' out rest hb
      dsimp only at hb
      by_cases hj : j = i
      · subst hj
        rw [Function.update_self] at hb
        obtain ⟨rfl, rfl, rfl, rfl⟩ := Phase.busy.inj hb
        exact hturn j l input
      · rw [Function.update_of_ne hj] at hb
        exact h.busy j before input' out rest hb

/-- Messages sent by thread `i` are not another's. -/
theorem filter_sent (out : List o) (i j : ι) :
    ((out.map fun x => (i, x)).filter fun x => x.1 = j).map Prod.snd =
      if i = j then out else [] := by
  by_cases h : i = j
  · simp [h, Function.comp_def, List.filter_map]
  · simp [h, Function.comp_def, List.filter_map]

/-- The end of a turn. -/
theorem kept_ret (h : Kept Post y) {i : ι} {before : L i} {input : In i} {out : List o} {l : L i}
    (hp : y.phase i = .busy before input out (.ret l)) : Kept Post (y.step i) := by
  have hpost : Post i before input (out ++ []) := h.busy i before input out _ hp
  have hbegun := h.begun i
  have hsent := h.sent i
  rw [hp] at hbegun hsent
  rw [List.append_nil] at hpost
  rw [step_ret hp]
  refine ⟨fun j => ?_, fun j => ?_, fun j => ?_, fun j => ?_⟩
  · dsimp only
    by_cases hj : j = i
    · subst hj
      rw [Function.update_self, Function.update_self, hbegun]
      simp [Phase.input]
    · rw [Function.update_of_ne hj, Function.update_of_ne hj, h.begun j]
  · change y.sentBy j = _
    dsimp only
    by_cases hj : j = i
    · subst hj
      rw [Function.update_self, Function.update_self, hsent]
      simp [Phase.out]
    · rw [Function.update_of_ne hj, Function.update_of_ne hj, h.sent j]
  · intro t ht
    dsimp only at ht
    by_cases hj : j = i
    · subst hj
      rw [Function.update_self, List.mem_append, List.mem_singleton] at ht
      rcases ht with ht | rfl
      · exact h.done j t ht
      · exact hpost
    · rw [Function.update_of_ne hj] at ht
      exact h.done j t ht
  · intro before' input' out' rest' hb
    dsimp only at hb
    by_cases hj : j = i
    · subst hj
      rw [Function.update_self] at hb
      exact nomatch hb
    · rw [Function.update_of_ne hj] at hb
      exact h.busy j before' input' out' rest' hb

/-- A step in a turn. -/
theorem kept_act (h : Kept Post y) {i : ι} {before : L i} {input : In i} {out out' : List o}
    {f : σ → σ} {rest : σ → Code σ o (L i)}
    (hp : y.phase i = .busy before input out (.act f out' rest)) : Kept Post (y.step i) := by
  have hrest := h.busy i before input out _ hp
  have hbegun := h.begun i
  have hsent := h.sent i
  rw [hp] at hbegun hsent
  rw [step_act hp]
  refine ⟨fun j => ?_, fun j => ?_, h.done, fun j => ?_⟩
  · dsimp only
    by_cases hj : j = i
    · subst hj
      rw [Function.update_self, hbegun]
      rfl
    · rw [Function.update_of_ne hj, h.begun j]
  · change ((y.sent ++ out'.map fun x => (i, x)).filter _).map _ = _
    rw [List.filter_append, List.map_append, filter_sent]
    change y.sentBy j ++ _ = _
    dsimp only
    by_cases hj : j = i
    · subst hj
      rw [if_pos rfl, Function.update_self, hsent, List.append_assoc]
      rfl
    · rw [if_neg (Ne.symm hj), Function.update_of_ne hj, List.append_nil, h.sent j]
  · intro before' input' out'' rest' hb
    dsimp only at hb
    by_cases hj : j = i
    · subst hj
      rw [Function.update_self] at hb
      obtain ⟨rfl, rfl, rfl, rfl⟩ := Phase.busy.inj hb
      refine (hrest y.shared).mono fun tr _ hpost => ?_
      rwa [List.append_assoc]
    · rw [Function.update_of_ne hj] at hb
      exact h.busy j before' input' out'' rest' hb

theorem kept_step (h : Kept Post y) (i : ι) : Kept Post (y.step i) := by
  cases hp : y.phase i with
  | idle l => rwa [step_idle hp]
  | busy before input out rest =>
    cases rest with
    | ret l => exact kept_ret h hp
    | act f out' rest => exact kept_act h hp

/-- **What the turns yield, the threads have sent in every run.** -/
theorem run_kept (hturn : ∀ i l input, (turn i l input).Yields fun tr _ => Post i l input tr)
    (h : Kept Post y) (es : List (Event In)) : Kept Post (es.foldl (next turn) y) := by
  induction es generalizing y with
  | nil => exact h
  | cons e es ih =>
    cases e with
    | begin i input => exact ih (kept_begin hturn h i input)
    | step i => exact ih (kept_step h i)

/-- What a turn has sent can be continued to what it must yield. -/
theorem Kept.continued (h : Kept Post y) {i : ι} {before : L i} {input : In i} {out : List o}
    {rest : Code σ o (L i)} (hp : y.phase i = .busy before input out rest) :
    ∃ tr, Post i before input (out ++ tr) :=
  ⟨_, (h.busy i before input out rest hp).of_alone y.shared⟩

/-- Each message is in the answer of a turn. -/
theorem Kept.mem_messages (h : Kept Post y) {x : o} (hx : x ∈ y.messages) :
    ∃ i before input out, Post i before input out ∧ x ∈ out := by
  obtain ⟨⟨i, x⟩, hmem, rfl⟩ := List.mem_map.1 hx
  have hby : x ∈ y.sentBy i :=
    List.mem_map.2 ⟨(i, x), List.mem_filter.2 ⟨hmem, by simp⟩, rfl⟩
  rw [h.sent, List.mem_append, List.mem_flatMap] at hby
  rcases hby with ⟨t, ht, hxt⟩ | hxp
  · exact ⟨i, t.before, t.input, t.out, h.done i t ht, hxt⟩
  · cases hp : y.phase i with
    | idle l =>
      rw [hp] at hxp
      exact absurd hxp List.not_mem_nil
    | busy before input out rest =>
      rw [hp] at hxp
      obtain ⟨tr, hpost⟩ := h.continued hp
      exact ⟨i, before, input, out ++ tr, hpost, List.mem_append_left _ hxp⟩

end Interleave

end SerialServer
