import Mathlib.Data.List.Infix

/-!
Computations that see what has happened so far, add events to it and may stop early. A triple
says what holds at every moment, also where the computation is cut short by a crash, and what
holds when it returns.
-/
namespace Library.Traces

/-- The events of a run and its result, from what has happened before. -/
def Traced (Event Stop α : Type) : Type := List Event → List Event × Except Stop α

section Monad

variable {Event Stop α β : Type}

def Traced.pure (a : α) : Traced Event Stop α := fun _ => ([], .ok a)

def Traced.bind (m : Traced Event Stop α) (k : α → Traced Event Stop β) :
    Traced Event Stop β := fun history =>
  match m history with
  | (events, .error stop) => (events, .error stop)
  | (events, .ok a) =>
      let (later, result) := k a (history ++ events)
      (events ++ later, result)

instance : Monad (Traced Event Stop) where
  pure := Traced.pure
  bind := Traced.bind

instance : MonadLift (Except Stop) (Traced Event Stop) where
  monadLift result := fun _ => ([], result)

def emit (event : Event) : Traced Event Stop Unit := fun _ => ([event], .ok ())

def stop (reason : Stop) : Traced Event Stop α := fun _ => ([], .error reason)

def history : Traced Event Stop (List Event) := fun history => ([], .ok history)

def forEach (xs : List α) (body : α → Traced Event Stop Unit) : Traced Event Stop Unit :=
  match xs with
  | [] => .pure ()
  | x :: rest => (body x).bind fun _ => forEach rest body

/-- A computation that is cut when so many events have happened. How it would have ended is lost. -/
def cut {Stop' : Type} (moment : ℕ) (m : Traced Event Stop α) : Traced Event Stop' Unit :=
  fun history => ((m history).1.take moment, .ok ())

end Monad

/-- From a history with `P`, every moment of the run has `I`, and where the run is over it
has `E` if it stopped early, or the result and the history have `Q`. -/
def Triple {Event Stop α : Type} (I E P : List Event → Prop) (m : Traced Event Stop α)
    (Q : α → List Event → Prop) : Prop :=
  ∀ history, P history →
    (∀ events, events <+: (m history).1 → I (history ++ events)) ∧
      match (m history).2 with
      | .error _ => E (history ++ (m history).1)
      | .ok a => Q a (history ++ (m history).1)

section Always

variable {Event : Type} {R : List Event → Event → Prop} {history : List Event}

/-- Every event stands in a relation to those before it. -/
def Always (R : List Event → Event → Prop) (history : List Event) : Prop :=
  ∀ front event back, history = front ++ event :: back → R front event

theorem always_nil : Always R [] := by
  intro front event back h
  cases front <;> cases h

theorem always_concat {event : Event} :
    Always R (history ++ [event]) ↔ Always R history ∧ R history event := by
  constructor
  · intro h
    refine ⟨?_, h history event [] rfl⟩
    rintro front other back rfl
    exact h front other (back ++ [event]) (by simp)
  · rintro ⟨h, hevent⟩ front other back hsplit
    rcases List.eq_nil_or_concat back with rfl | ⟨initial, last, rfl⟩
    · obtain ⟨rfl, hlast⟩ := List.append_inj' hsplit rfl
      cases hlast
      exact hevent
    · rw [List.concat_eq_append, ← List.cons_append, ← List.append_assoc] at hsplit
      obtain ⟨hfront, -⟩ := List.append_inj' hsplit rfl
      exact h front other initial hfront

theorem always_earlier {earlier : List Event} (hearlier : earlier <+: history)
    (h : Always R history) : Always R earlier := by
  obtain ⟨more, rfl⟩ := hearlier
  rintro front event back rfl
  exact h front event (back ++ more) (by simp)

end Always

section Runs

variable {Event Stop α β : Type} {m : Traced Event Stop α} {k : α → Traced Event Stop β}
  {now events : List Event}

theorem run_bind_error {reason : Stop} (h : m now = (events, .error reason)) :
    (m >>= k) now = (events, .error reason) := by
  change Traced.bind m k now = _
  rw [Traced.bind, h]

theorem run_bind_ok {a : α} (h : m now = (events, .ok a)) :
    (m >>= k) now = (events ++ (k a (now ++ events)).1, (k a (now ++ events)).2) := by
  change Traced.bind m k now = _
  rw [Traced.bind, h]

theorem run_bind_lift {result : Except Stop α} {a : α} (h : result = .ok a) :
    ((liftM result : Traced Event Stop α) >>= k) now = k a now := by
  have hlift : (liftM result : Traced Event Stop α) now = ([], .ok a) := by
    rw [h]
    rfl
  rw [run_bind_ok hlift, List.append_nil]
  rfl

/-- A run that returns is made of two that do. -/
theorem run_bind_returns {b : β} :
    (m >>= k) now = (events, .ok b) ↔ ∃ first a later, m now = (first, .ok a) ∧
      k a (now ++ first) = (later, .ok b) ∧ events = first ++ later := by
  constructor
  · intro h
    rcases hrun : m now with ⟨first, reason | a⟩
    · rw [run_bind_error hrun] at h
      cases h
    · rw [run_bind_ok hrun] at h
      obtain ⟨rfl, hresult⟩ := Prod.mk.inj h
      exact ⟨first, a, _, rfl, Prod.ext rfl hresult, rfl⟩
  · rintro ⟨first, a, later, hm, hk, rfl⟩
    rw [run_bind_ok hm, hk]

theorem run_bind_lift_returns {result : Except Stop α} {b : β} :
    ((liftM result : Traced Event Stop α) >>= k) now = (events, .ok b) ↔
      ∃ a, result = .ok a ∧ k a now = (events, .ok b) := by
  cases result with
  | error reason =>
    constructor
    · intro h
      cases h
    · rintro ⟨a, ha, -⟩
      cases ha
  | ok a =>
    rw [run_bind_lift rfl]
    constructor
    · exact fun h => ⟨a, rfl, h⟩
    · rintro ⟨a', ha, h⟩
      cases ha
      exact h

theorem run_bind_history {k : List Event → Traced Event Stop β} :
    (history >>= k) now = k now now := by
  rw [run_bind_ok (show (history : Traced Event Stop _) now = ([], .ok now) from rfl),
    List.append_nil]
  rfl

theorem forEach_emit {γ : Type} (xs : List γ) (event : γ → Event) :
    (forEach xs fun x => emit (event x) : Traced Event Stop Unit) now =
      (xs.map event, .ok ()) := by
  induction xs generalizing now with
  | nil => rfl
  | cons x rest ih =>
    change Traced.bind (emit (event x)) _ now = _
    rw [Traced.bind, emit]
    simp only
    rw [ih]
    rfl

theorem forEach_emit_if {γ : Type} (xs : List γ) (holds : γ → Prop) [DecidablePred holds]
    (event : γ → Event) :
    (forEach xs fun x => if holds x then emit (event x) else pure () : Traced Event Stop Unit) now =
      ((xs.filter fun x => holds x).map event, .ok ()) := by
  induction xs generalizing now with
  | nil => rfl
  | cons x rest ih =>
    set body : γ → Traced Event Stop Unit :=
      fun x => if holds x then emit (event x) else pure () with hbody
    have hrun : forEach (x :: rest) body now = (body x >>= fun _ => forEach rest body) now := rfl
    rw [hrun]
    by_cases hx : holds x
    · have hfirst : body x now = ([event x], .ok ()) := by
        rw [hbody]
        simp only [if_pos hx]
        rfl
      rw [run_bind_ok hfirst, ih, List.filter_cons_of_pos (by simpa using hx)]
      rfl
    · have hfirst : body x now = ([], .ok ()) := by
        rw [hbody]
        simp only [if_neg hx]
        rfl
      rw [run_bind_ok hfirst, ih, List.filter_cons_of_neg (by simpa using hx)]
      rfl

theorem forEach_congr {γ : Type} {xs : List γ} {body body' : γ → Traced Event Stop Unit}
    (h : ∀ x ∈ xs, body x = body' x) : forEach xs body = forEach xs body' := by
  induction xs with
  | nil => rfl
  | cons x rest ih =>
    change body x >>= _ = body' x >>= _
    rw [h x List.mem_cons_self]
    exact congrArg _ (funext fun _ => ih fun y hy => h y (List.mem_cons_of_mem x hy))

/-- A loop ends where each of its rounds does. -/
theorem forEach_ends {γ : Type} {xs : List γ} {body : γ → Traced Event Stop Unit}
    (h : ∀ x ∈ xs, ∀ now, ∃ events, body x now = (events, .ok ())) (now : List Event) :
    ∃ events, forEach xs body now = (events, .ok ()) := by
  induction xs generalizing now with
  | nil => exact ⟨[], rfl⟩
  | cons x rest ih =>
    obtain ⟨first, hfirst⟩ := h x List.mem_cons_self now
    obtain ⟨later, hlater⟩ := ih (fun y hy => h y (List.mem_cons_of_mem x hy)) (now ++ first)
    exact ⟨first ++ later, run_bind_returns (k := fun _ => forEach rest body).mpr
      ⟨first, (), later, hfirst, hlater, rfl⟩⟩

/-- A loop that returns goes through the rounds before one, that one and the rounds after it. -/
theorem forEach_split {γ : Type} {front back : List γ} {x : γ}
    {body : γ → Traced Event Stop Unit}
    (h : forEach (front ++ x :: back) body now = (events, .ok ())) :
    ∃ early own late, forEach front body now = (early, .ok ()) ∧
      body x (now ++ early) = (own, .ok ()) ∧
      forEach back body (now ++ early ++ own) = (late, .ok ()) ∧ events = early ++ own ++ late := by
  induction front generalizing now events with
  | nil =>
    obtain ⟨own, ⟨⟩, late, hown, hlate, rfl⟩ :=
      run_bind_returns (m := body x) (k := fun _ => forEach back body).mp h
    exact ⟨[], own, late, rfl, by rw [List.append_nil]; exact hown,
      by rw [List.append_nil]; exact hlate, rfl⟩
  | cons first rest ih =>
    obtain ⟨begun, ⟨⟩, later, hfirst, hlater, rfl⟩ :=
      run_bind_returns (m := body first) (k := fun _ => forEach (rest ++ x :: back) body).mp h
    obtain ⟨early, own, late, hearly, hown, hlate, rfl⟩ := ih hlater
    refine ⟨begun ++ early, own, late, ?_, ?_, ?_, ?_⟩
    · exact run_bind_returns (k := fun _ => forEach rest body).mpr
        ⟨begun, (), early, hfirst, hearly, rfl⟩
    · rw [← List.append_assoc]
      exact hown
    · rw [← List.append_assoc now]
      exact hlate
    · simp only [List.append_assoc]

end Runs

section Emits

variable {Event Stop α β : Type} {R : Event → Prop}

/-- Whatever has happened before, only such events are added. -/
def Emits (R : Event → Prop) (m : Traced Event Stop α) : Prop :=
  ∀ history, ∀ event ∈ (m history).1, R event

theorem Emits.pure {a : α} : Emits R (Pure.pure a : Traced Event Stop α) := by
  intro history event h
  cases h

theorem Emits.stop {reason : Stop} : Emits R (Traces.stop reason : Traced Event Stop α) := by
  intro history event h
  cases h

theorem Emits.emit {event : Event} (h : R event) :
    Emits R (Traces.emit event : Traced Event Stop Unit) := by
  intro history other hother
  rw [List.mem_singleton.mp hother]
  exact h

theorem Emits.bind {m : Traced Event Stop α} {k : α → Traced Event Stop β} (hm : Emits R m)
    (hk : ∀ a, Emits R (k a)) : Emits R (m >>= k) := by
  intro history event h
  rcases hrun : m history with ⟨events, reason | a⟩
  · rw [run_bind_error hrun] at h
    exact hm history event (by rw [hrun]; exact h)
  · rw [run_bind_ok hrun] at h
    rcases List.mem_append.mp h with hfirst | hlater
    · exact hm history event (by rw [hrun]; exact hfirst)
    · exact hk a _ event hlater

theorem Emits.lift {result : Except Stop α} : Emits R (liftM result : Traced Event Stop α) := by
  intro history event h
  cases h

theorem Emits.bindLift {result : Except Stop α} {k : α → Traced Event Stop β}
    (hk : ∀ a, result = .ok a → Emits R (k a)) :
    Emits R ((liftM result : Traced Event Stop α) >>= k) := by
  cases result with
  | error reason => exact Emits.stop
  | ok a =>
    intro history
    rw [run_bind_lift rfl]
    exact hk a rfl history

theorem Emits.forEach {xs : List α} {body : α → Traced Event Stop Unit}
    (hbody : ∀ x ∈ xs, Emits R (body x)) : Emits R (Traces.forEach xs body) := by
  induction xs with
  | nil => exact Emits.pure
  | cons x rest ih =>
    exact (hbody x List.mem_cons_self).bind fun _ =>
      ih fun y hy => hbody y (List.mem_cons_of_mem x hy)

/-- What no event of a kind ends. -/
theorem kept_append {K : Event → Prop} {P : List Event → Prop}
    (hkept : ∀ now event, P now → K event → P (now ++ [event])) {now later : List Event}
    (hnow : P now) (hlater : ∀ event ∈ later, K event) : P (now ++ later) := by
  induction later using List.reverseRecOn with
  | nil =>
    rw [List.append_nil]
    exact hnow
  | append_singleton earlier event ih =>
    rw [← List.append_assoc]
    refine hkept _ event (ih fun other hother => ?_) (hlater event (by simp))
    exact hlater other (List.mem_append_left _ hother)

/-- What every round of a loop brings about, and no event of a later one ends, holds once the loop
is over. -/
theorem forEach_returns {K : Event → Prop} {P : α → List Event → Prop} {xs : List α}
    {body : α → Traced Event Stop Unit} (hemits : ∀ x ∈ xs, Emits K (body x))
    (hbody : ∀ x ∈ xs, ∀ now events, body x now = (events, .ok ()) → P x (now ++ events))
    (hkept : ∀ x now event, P x now → K event → P x (now ++ [event])) {now events : List Event}
    (h : forEach xs body now = (events, .ok ())) : ∀ x ∈ xs, P x (now ++ events) := by
  induction xs generalizing now events with
  | nil =>
    intro x hx
    cases hx
  | cons first rest ih =>
    have hrest : ∀ y ∈ rest, y ∈ first :: rest := fun y hy => List.mem_cons_of_mem first hy
    obtain ⟨early, ⟨⟩, later, hfirst, hlater, rfl⟩ :=
      run_bind_returns (m := body first) (k := fun _ => forEach rest body).mp h
    rw [← List.append_assoc]
    intro x hx
    rcases List.mem_cons.mp hx with rfl | hin
    · refine kept_append (hkept x) (hbody x List.mem_cons_self now early hfirst)
        fun event hevent => ?_
      have hall := Emits.forEach (fun y hy => hemits y (hrest y hy)) (now ++ early)
      rw [hlater] at hall
      exact hall event hevent
    · exact ih (fun y hy => hemits y (hrest y hy)) (fun y hy => hbody y (hrest y hy)) hlater x hin

end Emits

section Rules

variable {Event Stop α β : Type} {I E P P' : List Event → Prop} {Q : α → List Event → Prop}

/-- A step without events that does not stop. -/
theorem Triple.silent {m : Traced Event Stop α} {result : List Event → α}
    (hrun : ∀ history, m history = ([], .ok (result history)))
    (h : ∀ history, P history → I history ∧ Q (result history) history) : Triple I E P m Q := by
  intro history hP
  rw [hrun history]
  constructor
  · intro events hevents
    rw [List.prefix_nil.mp hevents, List.append_nil]
    exact (h history hP).1
  · simp only [List.append_nil]
    exact (h history hP).2

theorem Triple.pure {a : α} (h : ∀ history, P history → I history ∧ Q a history) :
    Triple I E P (Pure.pure a : Traced Event Stop α) Q :=
  .silent (fun _ => rfl) h

theorem Triple.history {Q : List Event → List Event → Prop}
    (h : ∀ history, P history → I history ∧ Q history history) :
    Triple I E P (Library.Traces.history : Traced Event Stop (List Event)) Q :=
  .silent (fun _ => rfl) h

theorem Triple.stop {reason : Stop} (h : ∀ history, P history → I history ∧ E history) :
    Triple I E P (Library.Traces.stop reason : Traced Event Stop α) Q := by
  intro history hP
  constructor
  · intro events hevents
    rw [List.prefix_nil.mp hevents, List.append_nil]
    exact (h history hP).1
  · simp only [Library.Traces.stop, List.append_nil]
    exact (h history hP).2

theorem Triple.lift {result : Except Stop α}
    (hstop : ∀ history, P history → I history ∧ E history)
    (h : ∀ history a, P history → result = .ok a → Q a history) :
    Triple I E P (MonadLift.monadLift result : Traced Event Stop α) Q := by
  cases result with
  | error reason => exact .stop hstop
  | ok a => exact .pure fun history hP => ⟨(hstop history hP).1, h history a hP rfl⟩

theorem Triple.emit {event : Event} {Q : Unit → List Event → Prop}
    (hmoment : ∀ history, P history → I history)
    (h : ∀ history, P history → I (history ++ [event]) ∧ Q () (history ++ [event])) :
    Triple I E P (Library.Traces.emit event : Traced Event Stop Unit) Q := by
  intro history hP
  constructor
  · intro events hevents
    rcases List.prefix_cons_iff.mp hevents with rfl | ⟨rest, rfl, hrest⟩
    · rw [List.append_nil]
      exact hmoment history hP
    · rw [List.prefix_nil.mp hrest]
      exact (h history hP).1
  · exact (h history hP).2

theorem Triple.weaken {m : Traced Event Stop α} {Q' : α → List Event → Prop}
    (h : Triple I E P m Q) (hpre : ∀ history, P' history → P history)
    (hpost : ∀ a history, Q a history → Q' a history) : Triple I E P' m Q' := by
  intro history hP'
  obtain ⟨hmoment, hend⟩ := h history (hpre history hP')
  refine ⟨hmoment, ?_⟩
  cases hresult : (m history).2 with
  | error reason =>
    rw [hresult] at hend
    exact hend
  | ok a =>
    rw [hresult] at hend
    exact hpost a _ hend

theorem Triple.mono {I' E' : List Event → Prop} {m : Traced Event Stop α}
    (h : Triple I E P m Q) (hI : ∀ history, I history → I' history)
    (hE : ∀ history, E history → E' history) : Triple I' E' P m Q := by
  intro history hP
  obtain ⟨hmoment, hend⟩ := h history hP
  refine ⟨fun events hevents => hI _ (hmoment events hevents), ?_⟩
  cases hresult : (m history).2 with
  | error reason =>
    rw [hresult] at hend
    exact hE _ hend
  | ok a =>
    rw [hresult] at hend
    exact hend

/-- A triple with more of what holds where the computation returns. -/
theorem Triple.returns {m : Traced Event Stop α} {Q' : α → List Event → Prop}
    (h : Triple I E P m Q)
    (hQ : ∀ history events a, P history → m history = (events, .ok a) → Q' a (history ++ events)) :
    Triple I E P m fun a history => Q a history ∧ Q' a history := by
  intro history hP
  obtain ⟨hmoment, hend⟩ := h history hP
  refine ⟨hmoment, ?_⟩
  cases hresult : (m history).2 with
  | error reason =>
    rw [hresult] at hend
    exact hend
  | ok a =>
    rw [hresult] at hend
    exact ⟨hend, hQ history _ a hP (Prod.ext rfl hresult)⟩

/-- Two triples of one computation. -/
theorem Triple.and {I' E' P' : List Event → Prop} {m : Traced Event Stop α}
    {Q' : α → List Event → Prop} (h : Triple I E P m Q) (h' : Triple I' E' P' m Q') :
    Triple (fun history => I history ∧ I' history) (fun history => E history ∧ E' history)
      (fun history => P history ∧ P' history) m fun a history => Q a history ∧ Q' a history := by
  rintro history ⟨hP, hP'⟩
  obtain ⟨hmoment, hend⟩ := h history hP
  obtain ⟨hmoment', hend'⟩ := h' history hP'
  refine ⟨fun events hevents => ⟨hmoment events hevents, hmoment' events hevents⟩, ?_⟩
  cases hresult : (m history).2 with
  | error reason =>
    rw [hresult] at hend hend'
    exact ⟨hend, hend'⟩
  | ok a =>
    rw [hresult] at hend hend'
    exact ⟨hend, hend'⟩

/-- What a computation does from one history on. -/
theorem Triple.at {m : Traced Event Stop α}
    (h : ∀ history, P history → Triple I E (· = history) m Q) : Triple I E P m Q :=
  fun history hP => h history hP history rfl

theorem Triple.bind {m : Traced Event Stop α} {k : α → Traced Event Stop β}
    {R : β → List Event → Prop} (hm : Triple I E P m Q) (hk : ∀ a, Triple I E (Q a) (k a) R) :
    Triple I E P (m >>= k) R := by
  intro history hP
  obtain ⟨hmoment, hend⟩ := hm history hP
  rcases hrun : m history with ⟨events, reason | a⟩
  · rw [hrun] at hmoment hend
    rw [run_bind_error hrun]
    exact ⟨hmoment, hend⟩
  · rw [hrun] at hmoment hend
    obtain ⟨hlater, hends⟩ := hk a (history ++ events) hend
    rw [run_bind_ok hrun]
    constructor
    · intro more hmore
      rcases List.prefix_or_prefix_of_prefix hmore (List.prefix_append events _) with
        hfirst | ⟨second, rfl⟩
      · exact hmoment more hfirst
      · rw [← List.append_assoc]
        exact hlater second ((List.prefix_append_right_inj events).mp hmore)
    · simp only [← List.append_assoc]
      exact hends

/-- What can throw, and what is done with its result. -/
theorem Triple.bindLift {result : Except Stop α} {k : α → Traced Event Stop β}
    {R : β → List Event → Prop} (hstop : ∀ history, P history → I history ∧ E history)
    (hk : ∀ a, result = .ok a → Triple I E P (k a) R) :
    Triple I E P ((liftM result : Traced Event Stop α) >>= k) R := by
  cases result with
  | error reason => exact .stop hstop
  | ok a =>
    intro history hP
    rw [run_bind_lift rfl]
    exact hk a rfl history hP

/-- The loop rule: an invariant that every round keeps. -/
theorem Triple.forEach {J : List Event → Prop} {xs : List α} {body : α → Traced Event Stop Unit}
    (hmoment : ∀ history, J history → I history)
    (hbody : ∀ x ∈ xs, Triple I E J (body x) fun _ => J) :
    Triple I E J (forEach xs body) fun _ => J := by
  induction xs with
  | nil => exact .pure fun history hJ => ⟨hmoment history hJ, hJ⟩
  | cons x rest ih =>
    have hrest := ih fun y hy => hbody y (List.mem_cons_of_mem x hy)
    exact .bind (hbody x List.mem_cons_self) fun _ => hrest

/-- What none of the events ends holds all along. -/
theorem Triple.each {m : Traced Event Stop α}
    (h : Emits (fun event => ∀ now, I now → I (now ++ [event])) m) :
    Triple I I I m fun _ => I := by
  intro history hI
  have hlater : ∀ events, events <+: (m history).1 → I (history ++ events) := by
    intro events hevents
    exact kept_append (fun now _ hnow hkeeps => hkeeps now hnow) hI fun event hevent =>
      h history event (hevents.subset hevent)
  refine ⟨hlater, ?_⟩
  cases (m history).2 with
  | error reason => exact hlater _ (List.prefix_refl _)
  | ok a => exact hlater _ (List.prefix_refl _)

theorem Triple.cut {Stop' : Type} {moment : ℕ} {m : Traced Event Stop α} {E' : List Event → Prop}
    {Q' : Unit → List Event → Prop} (h : Triple I E P m Q)
    (hQ : ∀ history, I history → Q' () history) :
    Triple I E' P (Library.Traces.cut moment m : Traced Event Stop' Unit) Q' := by
  intro history hP
  obtain ⟨hmoment, -⟩ := h history hP
  have htake := List.take_prefix moment (m history).1
  exact ⟨fun events hevents => hmoment events (hevents.trans htake), hQ _ (hmoment _ htake)⟩

/-- What holds at every moment of a run from nothing, its end with them. -/
theorem Triple.moment {m : Traced Event Stop α} (h : Triple I E P m Q) (hP : P []) :
    ∀ events, events <+: (m []).1 → I events :=
  (h [] hP).1

theorem Triple.returned {m : Traced Event Stop α} (h : Triple I E P m Q) (hP : P []) {a : α}
    (ha : (m []).2 = .ok a) : Q a (m []).1 := by
  have hend := (h [] hP).2
  rw [ha] at hend
  exact hend

/-- What holds at the end of a run from nothing, whatever end it has. -/
theorem Triple.over {m : Traced Event Stop α} (h : Triple I E P m fun _ => E) (hP : P []) :
    E (m []).1 := by
  have hend := (h [] hP).2
  cases hresult : (m []).2 with
  | error reason =>
    rw [hresult] at hend
    exact hend
  | ok a =>
    rw [hresult] at hend
    exact hend

end Rules
end Library.Traces
