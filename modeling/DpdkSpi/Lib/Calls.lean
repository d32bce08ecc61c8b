import DpdkSpi.Lib.System

/-!
# Programs that make calls

A program calls an interface and goes on with the answers.  What is on the other side is a
`World`: it says which calls a caller may make, which answers they may get and what they do.

`Prog.Ensures` is the weakest precondition for answers that are chosen by somebody else.  It
speaks about every point of a run, so that it is also about a program that is stopped half way.
What it says about the runs of the program, step by step, is `Prog.Ensures.reach`.
-/

namespace DpdkSpi.Lib

universe u

/-- Calls, and the answers to each of them. -/
structure Interface where
  Call : Type
  Answer : Call → Type

/-- A program that returns a value after calls of the interface. -/
inductive Prog (ι : Interface) (α : Type) : Type
  /-- The program has returned. -/
  | done (a : α) : Prog ι α
  /-- The next call, and what follows each of its answers. -/
  | call (c : ι.Call) (next : ι.Answer c → Prog ι α) : Prog ι α

namespace Prog

variable {ι : Interface} {α β ε : Type}

/-- The rest of a program behind its end. -/
def bind : Prog ι α → (α → Prog ι β) → Prog ι β
  | .done a, k => k a
  | .call c next, k => .call c fun r ↦ (next r).bind k

instance : Monad (Prog ι) where
  pure := .done
  bind := .bind

/-- One call. -/
def perform (c : ι.Call) : Prog ι (ι.Answer c) := .call c .done

@[simp] theorem done_bind (a : α) (k : α → Prog ι β) : (Prog.done a >>= k) = k a := rfl

@[simp] theorem call_bind (c : ι.Call) (next : ι.Answer c → Prog ι α) (k : α → Prog ι β) :
    (Prog.call c next >>= k) = .call c fun r ↦ next r >>= k := rfl

/-! ## Programs that fail -/

/-- Going on with the value of a program, unless it returns an error. -/
def andThen (p : Prog ι (Except ε α)) (k : α → Prog ι (Except ε β)) : Prog ι (Except ε β) :=
  p >>= fun
    | .error e => .done (.error e)
    | .ok a => k a

/-- A loop over a list that ends with the first error. -/
def forEach (f : β → Prog ι (Except ε Unit)) : List β → Prog ι (Except ε Unit)
  | [] => .done (.ok ())
  | x :: xs => (f x).andThen fun _ ↦ forEach f xs

/-- The same with a value that every iteration replaces. -/
def foldEach (f : α → β → Prog ι (Except ε α)) : List β → α → Prog ι (Except ε α)
  | [], a => .done (.ok a)
  | x :: xs, a => (f a x).andThen fun a ↦ foldEach f xs a

end Prog

/-! ## Worlds -/

/-- What is on the other side of an interface. -/
structure World (ι : Interface) (σ : Type u) where
  /-- The calls that a caller may make. -/
  Allowed : σ → ι.Call → Prop
  /-- `Answers s c r s'`: the call `c` may be answered by `r`, with `s'` as the next state. -/
  Answers : σ → (c : ι.Call) → ι.Answer c → σ → Prop

namespace Prog

variable {ι : Interface} {σ : Type u} {α β ε : Type}

/-- The runs of a program: every call takes it to what follows some answer. -/
def runs (W : World ι σ) (p : Prog ι α) (start : σ → Prop) : System (Prog ι α × σ) ι.Call where
  init q := q.1 = p ∧ start q.2
  step q c q' := ∃ next r, q.1 = .call c next ∧ q'.1 = next r ∧ W.Answers q.2 c r q'.2

/-- From `s`, whatever the answers are: `I` holds all the time, no call is made that is not
allowed, and in the end `Q` holds. -/
def Ensures (W : World ι σ) (I : σ → Prop) : Prog ι α → σ → (α → σ → Prop) → Prop
  | .done a, s, Q => I s ∧ Q a s
  | .call c next, s, Q =>
      I s ∧ W.Allowed s c ∧ ∀ r s', W.Answers s c r s' → (next r).Ensures W I s' Q

section Rules

variable {W : World ι σ} {I J : σ → Prop} {s : σ}

theorem Ensures.inv {p : Prog ι α} {Q : α → σ → Prop} (h : p.Ensures W I s Q) : I s := by
  cases p with
  | done a => exact h.1
  | call c next => exact h.1

theorem Ensures.mono {p : Prog ι α} {Q R : α → σ → Prop} (h : p.Ensures W I s Q)
    (hI : ∀ s, I s → J s) (hQ : ∀ a s, I s → Q a s → R a s) : p.Ensures W J s R := by
  induction p generalizing s with
  | done a => exact ⟨hI _ h.1, hQ _ _ h.1 h.2⟩
  | call c next ih => exact ⟨hI _ h.1, h.2.1, fun r s' hr ↦ ih r (h.2.2 r s' hr)⟩

/-- The same with another requirement in the end. -/
theorem Ensures.imp {p : Prog ι α} {Q R : α → σ → Prop} (h : p.Ensures W I s Q)
    (hQ : ∀ a s, I s → Q a s → R a s) : p.Ensures W I s R :=
  h.mono (fun _ hs ↦ hs) hQ

/-- Both of two requirements. -/
theorem Ensures.and {p : Prog ι α} {Q R : α → σ → Prop} (hQ : p.Ensures W I s Q)
    (hR : p.Ensures W J s R) :
    p.Ensures W (fun s ↦ I s ∧ J s) s fun a s ↦ Q a s ∧ R a s := by
  induction p generalizing s with
  | done a => exact ⟨⟨hQ.1, hR.1⟩, hQ.2, hR.2⟩
  | call c next ih =>
      exact ⟨⟨hQ.1, hR.1⟩, hQ.2.1, fun r s' hr ↦ ih r (hQ.2.2 r s' hr) (hR.2.2 r s' hr)⟩

theorem ensures_done {a : α} {Q : α → σ → Prop} (hI : I s) (hQ : Q a s) :
    (Prog.done a).Ensures W I s Q :=
  ⟨hI, hQ⟩

theorem ensures_perform {c : ι.Call} {Q : ι.Answer c → σ → Prop} (hI : I s)
    (hc : W.Allowed s c) (hQ : ∀ r s', W.Answers s c r s' → I s' ∧ Q r s') :
    (perform c).Ensures W I s Q :=
  ⟨hI, hc, hQ⟩

theorem Ensures.bind {p : Prog ι α} {k : α → Prog ι β} {Q : α → σ → Prop} {R : β → σ → Prop}
    (h : p.Ensures W I s Q) (hk : ∀ a s, I s → Q a s → (k a).Ensures W I s R) :
    (p >>= k).Ensures W I s R := by
  induction p generalizing s with
  | done a => exact hk a s h.1 h.2
  | call c next ih => exact ⟨h.1, h.2.1, fun r s' hr ↦ ih r (h.2.2 r s' hr)⟩

/-- A program behind another one that may return an error. -/
theorem Ensures.andThen {p : Prog ι (Except ε α)} {k : α → Prog ι (Except ε β)}
    {Q : Except ε α → σ → Prop} {R : Except ε β → σ → Prop} (h : p.Ensures W I s Q)
    (herror : ∀ e s, I s → Q (.error e) s → R (.error e) s)
    (hk : ∀ a s, I s → Q (.ok a) s → (k a).Ensures W I s R) :
    (p.andThen k).Ensures W I s R := by
  refine h.bind fun r s hs hr ↦ ?_
  cases r with
  | error e => exact ensures_done hs (herror e s hs hr)
  | ok a => exact hk a s hs hr

/-- The rule of a loop: `J n` holds before the iteration for the element `n` of the list. -/
theorem ensures_forEach {f : β → Prog ι (Except ε Unit)} {xs : List β} {J : Nat → σ → Prop}
    {R : ε → σ → Prop} {n : Nat} (hI : I s) (hJ : J n s)
    (hf : ∀ i x s, xs[i]? = some x → I s → J (n + i) s →
      (f x).Ensures W I s fun r s ↦
        match r with
        | .ok _ => J (n + i + 1) s
        | .error e => R e s) :
    (forEach f xs).Ensures W I s fun r s ↦
      match r with
      | .ok _ => J (n + xs.length) s
      | .error e => R e s := by
  induction xs generalizing s n with
  | nil => exact ensures_done hI hJ
  | cons x xs ih =>
      refine (hf 0 x s rfl hI hJ).andThen (fun e s _ he ↦ he) fun _ s hs hok ↦ ?_
      have hrest := ih hs hok fun i y s hy hI hJ ↦ by
        rw [Nat.add_right_comm n 0 1, Nat.add_assoc n 1 i, Nat.add_comm 1 i] at hJ ⊢
        exact hf (i + 1) y s hy hI hJ
      refine hrest.imp fun r s _ hr ↦ ?_
      cases r with
      | error e => exact hr
      | ok _ =>
          rw [List.length_cons, Nat.add_comm xs.length, ← Nat.add_assoc]
          exact hr

/-- The rule of a loop with a value: `J` is about the part of the list that is behind it. -/
theorem ensures_foldEach {f : α → β → Prog ι (Except ε α)} {xs : List β}
    {J : List β → α → σ → Prop} {R : ε → σ → Prop} {front : List β} {a : α} (hI : I s)
    (hJ : J front a s)
    (hf : ∀ front' x back a s, front' ++ x :: back = front ++ xs → I s → J front' a s →
      (f a x).Ensures W I s fun r s ↦
        match r with
        | .ok a => J (front' ++ [x]) a s
        | .error e => R e s) :
    (foldEach f xs a).Ensures W I s fun r s ↦
      match r with
      | .ok a => J (front ++ xs) a s
      | .error e => R e s := by
  induction xs generalizing s front a with
  | nil =>
      rw [List.append_nil]
      exact ensures_done hI hJ
  | cons x xs ih =>
      have hassoc : front ++ x :: xs = front ++ [x] ++ xs := by
        rw [List.append_assoc, List.singleton_append]
      refine (hf front x xs a s rfl hI hJ).andThen (fun e s _ he ↦ he) fun a s hs hok ↦ ?_
      rw [hassoc]
      refine ih hs hok fun front' y back a s hlist ↦ hf front' y back a s ?_
      rw [hassoc]
      exact hlist

/-! ## Runs -/

/-- What is ensured holds at every point of every run. -/
theorem Ensures.reach {p : Prog ι α} {start : σ → Prop} {Q : α → σ → Prop}
    (h : ∀ s, start s → p.Ensures W I s Q) {q : Prog ι α} (hq : (p.runs W start).Reach (q, s)) :
    I s ∧ (∀ c next, q = .call c next → W.Allowed s c) ∧ ∀ a, q = .done a → Q a s := by
  have hensures : q.Ensures W I s Q := by
    refine hq.invariant (I := fun q ↦ q.1.Ensures W I q.2 Q) ?_ ?_
    · rintro ⟨q, s⟩ ⟨rfl, hs⟩
      exact h s hs
    · rintro ⟨q, s⟩ c ⟨q', s'⟩ hq ⟨next, r, rfl, rfl, hr⟩
      exact hq.2.2 r s' hr
  refine ⟨hensures.inv, ?_, ?_⟩
  · rintro c next rfl
    exact hensures.2.1
  · rintro a rfl
    exact hensures.2

/-- From `s` the program may return `a` in `s'`. -/
inductive Ends (W : World ι σ) : Prog ι α → σ → α → σ → Prop
  | done (a : α) (s : σ) : Ends W (.done a) s a s
  | call {c : ι.Call} {next : ι.Answer c → Prog ι α} {s s'' : σ} {a : α} (r : ι.Answer c)
      (s' : σ) : W.Answers s c r s' → Ends W (next r) s' a s'' → Ends W (.call c next) s a s''

/-- What is ensured holds of every way to return. -/
theorem Ends.ensured {p : Prog ι α} {Q : α → σ → Prop} {a : α} {s' : σ} (h : p.Ends W s a s')
    (hp : p.Ensures W I s Q) : Q a s' := by
  induction h with
  | done a s => exact hp.2
  | call r s' hr _ ih => exact ih (hp.2.2 r s' hr)

theorem Ends.bind {p : Prog ι α} {k : α → Prog ι β} {s s' s'' : σ} {a : α} {b : β}
    (h : p.Ends W s a s') (hk : (k a).Ends W s' b s'') : (p >>= k).Ends W s b s'' := by
  induction h with
  | done a s => exact hk
  | call r s' hr _ ih => exact .call r s' hr (ih hk)

/-- A program that ends the one in front of it with an error. -/
theorem Ends.andThen_error {p : Prog ι (Except ε α)} {k : α → Prog ι (Except ε β)} {s s' : σ}
    {e : ε} (h : p.Ends W s (.error e) s') : (p.andThen k).Ends W s (.error e) s' :=
  h.bind (.done _ _)

/-- What may be returned is what some run returns. -/
theorem Ends.reach {p q : Prog ι α} {start : σ → Prop} {s s' : σ} {a : α}
    (h : q.Ends W s a s') (hq : (p.runs W start).Reach (q, s)) :
    (p.runs W start).Reach (.done a, s') := by
  induction h with
  | done a s => exact hq
  | @call c next s s'' a r s' hr _ ih => exact ih (hq.step (a := c) ⟨next, r, rfl, rfl, hr⟩)

/-- The same, in front of another program. -/
theorem Ends.reach_bind {p : Prog ι α} {k : α → Prog ι β} {q : Prog ι β} {start : σ → Prop}
    {s s' : σ} {a : α} (h : p.Ends W s a s') (hq : (q.runs W start).Reach (p >>= k, s)) :
    (q.runs W start).Reach (k a, s') := by
  induction h with
  | done a s => exact hq
  | @call c next s s'' a r s' hr _ ih => exact ih (hq.step (a := c) ⟨_, r, rfl, rfl, hr⟩)

/-! ## A world that answers -/

/-- The run of a program whose calls are answered by a function. -/
def eval (answer : σ → (c : ι.Call) → ι.Answer c × σ) : Prog ι α → σ → α × σ
  | .done a, s => (a, s)
  | .call c next, s => (next (answer s c).1).eval answer (answer s c).2

/-- What it returns may be returned. -/
theorem ends_eval {answer : σ → (c : ι.Call) → ι.Answer c × σ}
    (hanswer : ∀ s c, W.Answers s c (answer s c).1 (answer s c).2) (p : Prog ι α) :
    p.Ends W s (p.eval answer s).1 (p.eval answer s).2 := by
  induction p generalizing s with
  | done a => exact .done a s
  | call c next ih => exact .call (answer s c).1 (answer s c).2 (hanswer s c) (ih _)

/-- The run is one of the runs. -/
theorem reach_eval {answer : σ → (c : ι.Call) → ι.Answer c × σ}
    (hanswer : ∀ s c, W.Answers s c (answer s c).1 (answer s c).2) {p : Prog ι α}
    {start : σ → Prop} {q : Prog ι α} (hq : (p.runs W start).Reach (q, s)) :
    (p.runs W start).Reach (.done (q.eval answer s).1, (q.eval answer s).2) :=
  (ends_eval hanswer q).reach hq

end Rules

end Prog

end DpdkSpi.Lib
