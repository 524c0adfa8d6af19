import Mathlib.Logic.Relation
import Mathlib.Data.Fin.Tuple.Basic

/-! Transition systems whose steps may fault, and the states their runs reach. -/
namespace Transition

universe u

variable {σ α ε : Type*}

theorem bind_eq_ok {β γ : Type u} {x : Except ε β} {f : β → Except ε γ} {r : γ} :
    x >>= f = .ok r ↔ ∃ a, x = .ok a ∧ f a = .ok r := by
  cases x with
  | error e =>
      constructor
      · intro h; cases h
      · rintro ⟨a, ha, -⟩; cases ha
  | ok a =>
      constructor
      · intro h; exact ⟨a, rfl, h⟩
      · rintro ⟨b, hb, h⟩; cases hb; exact h

theorem pure_eq_ok {a b : α} : (pure a : Except ε α) = .ok b ↔ a = b := by
  constructor
  · intro h; cases h; rfl
  · rintro rfl; rfl

theorem bind_eq_error {β γ : Type u} {x : Except ε β} {f : β → Except ε γ} {e : ε} :
    x >>= f = .error e ↔ x = .error e ∨ ∃ a, x = .ok a ∧ f a = .error e := by
  cases x with
  | error e' =>
      constructor
      · intro h; cases h; exact Or.inl rfl
      · rintro (h | ⟨a, ha, -⟩)
        · cases h; rfl
        · cases ha
  | ok a =>
      constructor
      · intro h; exact Or.inr ⟨a, rfl, h⟩
      · rintro (h | ⟨b, hb, h⟩)
        · cases h
        · cases hb; exact h

/-- The results of a family of computations, each of which may fault. -/
def collect {β : Type u} : {n : Nat} → (Fin n → Except ε β) → Except ε (Fin n → β)
  | 0, _ => .ok Fin.elim0
  | _ + 1, f => do
      let a ← f 0
      let rest ← collect fun i => f i.succ
      return Fin.cons a rest

theorem collect_eq_ok {β : Type u} {n : Nat} {f : Fin n → Except ε β} {g : Fin n → β} :
    collect f = .ok g ↔ ∀ i, f i = .ok (g i) := by
  induction n with
  | zero => exact ⟨fun _ i => i.elim0, fun _ => congrArg Except.ok (funext fun i => i.elim0)⟩
  | succ n ih =>
      unfold collect
      constructor
      · intro h
        obtain ⟨a, ha, h⟩ := bind_eq_ok.mp h
        obtain ⟨rest, hrest, h⟩ := bind_eq_ok.mp h
        cases h
        intro i
        cases i using Fin.cases with
        | zero => exact ha
        | succ i => exact ih.mp hrest i
      · intro h
        refine bind_eq_ok.mpr ⟨g 0, h 0, bind_eq_ok.mpr ⟨fun i => g i.succ, ih.mpr fun i => h i.succ, ?_⟩⟩
        exact congrArg Except.ok (Fin.cons_self_tail g)

/-- A computation that does not end in the fault `e`. -/
def Avoids {β : Type u} (e : ε) (x : Except ε β) : Prop := x ≠ .error e

namespace Avoids

variable {β γ : Type u} {e e' : ε}

theorem ok (a : β) : Avoids e (.ok a) := nofun

theorem error (h : e' ≠ e) : Avoids e (.error e' : Except ε β) := fun hc => h (Except.error.inj hc)

theorem bind {x : Except ε β} {f : β → Except ε γ} (hx : Avoids e x) (hf : ∀ a, x = .ok a → Avoids e (f a)) :
    Avoids e (x >>= f) := by
  intro hc
  rcases bind_eq_error.mp hc with hc | ⟨a, ha, hc⟩
  · exact hx hc
  · exact hf a ha hc

end Avoids

/-- A computation that yields a value. -/
def Completes {β : Type u} (x : Except ε β) : Prop := ∃ a, x = .ok a

namespace Completes

variable {β γ : Type u} {x : Except ε β} {f : β → Except ε γ}

theorem ok (a : β) : Completes (.ok a : Except ε β) := ⟨a, rfl⟩

theorem not_error {e : ε} : ¬ Completes (.error e : Except ε β) := nofun

theorem bind_iff : Completes (x >>= f) ↔ ∃ a, x = .ok a ∧ Completes (f a) := by
  constructor
  · rintro ⟨r, hr⟩
    obtain ⟨a, ha, hr⟩ := bind_eq_ok.mp hr
    exact ⟨a, ha, r, hr⟩
  · rintro ⟨a, ha, r, hr⟩
    exact ⟨r, bind_eq_ok.mpr ⟨a, ha, hr⟩⟩

theorem bind_iff_and {p : Prop} (h : ∀ a, x = .ok a → (Completes (f a) ↔ p)) :
    Completes (x >>= f) ↔ Completes x ∧ p := by
  rw [bind_iff]
  constructor
  · rintro ⟨a, ha, hf⟩
    exact ⟨⟨a, ha⟩, (h a ha).mp hf⟩
  · rintro ⟨⟨a, ha⟩, hp⟩
    exact ⟨a, ha, (h a ha).mpr hp⟩

theorem bind_iff_left (h : ∀ a, x = .ok a → Completes (f a)) : Completes (x >>= f) ↔ Completes x := by
  rw [bind_iff_and (p := True) fun a ha => iff_true_intro (h a ha), and_true]

end Completes

/-- A step that faults has no successor: the run ends there. -/
structure System (σ α ε : Type*) where
  init : σ → Prop
  step : σ → α → Except ε σ

/-- The states reached by runs all of whose steps meet `guard`. -/
inductive System.ReachableWhen (S : System σ α ε) (guard : σ → α → Prop) : σ → Prop
  | init {s} : S.init s → S.ReachableWhen guard s
  | step {s a s'} : S.ReachableWhen guard s → guard s a → S.step s a = .ok s' →
      S.ReachableWhen guard s'

abbrev System.Reachable (S : System σ α ε) : σ → Prop := S.ReachableWhen fun _ _ => True

namespace System

variable {S : System σ α ε} {guard guard' : σ → α → Prop} {P Q : σ → Prop} {s : σ}

/-- What holds initially and is kept by every guarded step holds in every guarded run. -/
theorem ReachableWhen.invariant (h : S.ReachableWhen guard s) (hinit : ∀ s, S.init s → P s)
    (hstep : ∀ s a s', P s → guard s a → S.step s a = .ok s' → P s') : P s := by
  induction h with
  | init h0 => exact hinit _ h0
  | step _ hg hs ih => exact hstep _ _ _ ih hg hs

theorem ReachableWhen.mono (hg : ∀ s a, guard s a → guard' s a) (h : S.ReachableWhen guard s) :
    S.ReachableWhen guard' s := by
  induction h with
  | init h0 => exact .init h0
  | step _ hgs hs ih => exact .step ih (hg _ _ hgs) hs

def run (S : System σ α ε) : σ → List α → Except ε σ
  | s, [] => .ok s
  | s, a :: rest => S.step s a >>= fun s' => S.run s' rest

/-- Every action of the list is taken in a state that meets the guard. -/
def RunMeets (S : System σ α ε) (guard : σ → α → Prop) : σ → List α → Prop
  | _, [] => True
  | s, a :: rest => guard s a ∧ ∀ s', S.step s a = .ok s' → S.RunMeets guard s' rest

theorem runMeets_cons {a : α} {as : List α} {t : σ} (hs : S.step s a = .ok t) :
    S.RunMeets guard s (a :: as) ↔ guard s a ∧ S.RunMeets guard t as := by
  refine and_congr_right fun _ => ⟨fun h => h t hs, fun h t' ht' => ?_⟩
  rw [hs] at ht'
  cases ht'
  exact h

/-- The property holds in every state of the run that ends in `s'`. -/
def RunKeeps (S : System σ α ε) (P : σ → Prop) (s : σ) (as : List α) (s' : σ) : Prop :=
  S.RunMeets (fun t _ => P t) s as ∧ P s'

theorem runKeeps_cons {a : α} {as : List α} {t s' : σ} (hs : S.step s a = .ok t) :
    S.RunKeeps P s (a :: as) s' ↔ P s ∧ S.RunKeeps P t as s' := by
  unfold RunKeeps
  rw [runMeets_cons hs, and_assoc]

theorem RunKeeps.start {as : List α} {s' : σ} (h : S.RunKeeps P s as s') (hr : S.run s as = .ok s') : P s := by
  cases as with
  | nil =>
      cases hr
      exact h.2
  | cons a rest => exact h.1.1

/-- Where the guarded steps keep an invariant that implies the property, and all other steps break the property. -/
theorem runKeeps_iff_runMeets {I : σ → Prop} (hP : ∀ s, I s → P s)
    (hkeep : ∀ s a s', I s → guard s a → S.step s a = .ok s' → I s')
    (hbreak : ∀ s a s', I s → ¬ guard s a → S.step s a = .ok s' → ¬ P s') {as : List α} {s' : σ} (h : I s)
    (hr : S.run s as = .ok s') : S.RunKeeps P s as s' ↔ S.RunMeets guard s as := by
  induction as generalizing s with
  | nil =>
      cases hr
      exact iff_of_true ⟨trivial, hP _ h⟩ trivial
  | cons a rest ih =>
      obtain ⟨t, ht, hrest⟩ := bind_eq_ok.mp hr
      rw [runKeeps_cons ht, runMeets_cons ht]
      by_cases hg : guard s a
      · have hrec := ih (hkeep s a t h hg ht) hrest
        exact ⟨fun hk => ⟨hg, hrec.mp hk.2⟩, fun hm => ⟨hP s h, hrec.mpr hm.2⟩⟩
      · have hno := hbreak s a t h hg ht
        exact iff_of_false (fun hk => hno (hk.2.start hrest)) fun hm => hg hm.1

/-- In runs that keep an invariant under which two conditions agree, all steps meet the one or all meet the other. -/
theorem runMeets_congr {I : σ → Prop} {p q : σ → α → Prop}
    (hpq : ∀ s a, I s → guard s a → (p s a ↔ q s a))
    (hkeep : ∀ s a s', I s → guard s a → S.step s a = .ok s' → I s') {as : List α} (h : I s)
    (hm : S.RunMeets guard s as) : S.RunMeets p s as ↔ S.RunMeets q s as := by
  induction as generalizing s with
  | nil => exact Iff.rfl
  | cons a rest ih =>
      refine and_congr (hpq s a h hm.1) (forall_congr' fun t => forall_congr' fun hs => ?_)
      exact ih (hkeep s a t h hm.1 hs) (hm.2 t hs)

theorem runMeets_and {p q : σ → α → Prop} {as : List α} :
    S.RunMeets (fun t a => p t a ∧ q t a) s as ↔ S.RunMeets p s as ∧ S.RunMeets q s as := by
  induction as generalizing s with
  | nil => exact ⟨fun _ => ⟨trivial, trivial⟩, fun _ => trivial⟩
  | cons a rest ih =>
      constructor
      · rintro ⟨⟨hp, hq⟩, hrest⟩
        exact ⟨⟨hp, fun t ht => (ih.mp (hrest t ht)).1⟩, hq, fun t ht => (ih.mp (hrest t ht)).2⟩
      · rintro ⟨⟨hp, hp'⟩, hq, hq'⟩
        exact ⟨⟨hp, hq⟩, fun t ht => ih.mpr ⟨hp' t ht, hq' t ht⟩⟩

theorem runMeets_completes {as : List α} {s' : σ} (hr : S.run s as = .ok s') :
    S.RunMeets (fun t a => Completes (S.step t a)) s as := by
  induction as generalizing s with
  | nil => exact trivial
  | cons a rest ih =>
      obtain ⟨t, ht, hrest⟩ := bind_eq_ok.mp hr
      exact (runMeets_cons ht).mpr ⟨⟨t, ht⟩, ih hrest⟩

theorem ReachableWhen.run {as : List α} {s' : σ} (h : S.ReachableWhen guard s)
    (hm : S.RunMeets guard s as) (hr : S.run s as = .ok s') : S.ReachableWhen guard s' := by
  induction as generalizing s with
  | nil => cases hr; exact h
  | cons a rest ih =>
      obtain ⟨t, ht, hrest⟩ := bind_eq_ok.mp hr
      exact ih (.step h hm.1 ht) (hm.2 t ht) hrest

theorem runMeets_of_invariant {I : σ → Prop} (hg : ∀ s a, I s → guard s a)
    (hkeep : ∀ s a s', I s → guard s a → S.step s a = .ok s' → I s') (h : I s) (as : List α) :
    S.RunMeets guard s as := by
  induction as generalizing s with
  | nil => exact trivial
  | cons a rest ih =>
      have hguard := hg s a h
      exact ⟨hguard, fun t ht => ih (hkeep s a t h hguard ht)⟩

theorem runMeets_of_kept {I : σ → Prop} {q : σ → α → Prop} (hq : ∀ s a, I s → guard s a → q s a)
    (hkeep : ∀ s a s', I s → guard s a → S.step s a = .ok s' → I s') (h : I s) {as : List α}
    (hm : S.RunMeets guard s as) : S.RunMeets q s as := by
  induction as generalizing s with
  | nil => exact trivial
  | cons a rest ih => exact ⟨hq s a h hm.1, fun t ht => ih (hkeep s a t h hm.1 ht) (hm.2 t ht)⟩

theorem kept_of_run {I : σ → Prop} (hkeep : ∀ s a s', I s → guard s a → S.step s a = .ok s' → I s') (h : I s)
    {as : List α} {s' : σ} (hm : S.RunMeets guard s as) (hr : S.run s as = .ok s') : I s' := by
  induction as generalizing s with
  | nil =>
      cases hr
      exact h
  | cons a rest ih =>
      obtain ⟨t, ht, hrest⟩ := bind_eq_ok.mp hr
      exact ih (hkeep s a t h hm.1 ht) (hm.2 t ht) hrest

theorem runMeets_of_forall {p : α → Prop} {as : List α} (h : ∀ a ∈ as, p a) (s : σ) :
    S.RunMeets (fun _ a => p a) s as := by
  induction as generalizing s with
  | nil => exact trivial
  | cons a rest ih => exact ⟨h a List.mem_cons_self, fun s' _ =>
      ih (fun b hb => h b (List.mem_cons_of_mem a hb)) s'⟩

theorem runMeets_true (s : σ) (as : List α) : S.RunMeets (fun _ _ => True) s as :=
  runMeets_of_forall (p := fun _ => True) (fun _ _ => trivial) s

theorem Reachable.run {as : List α} {s' : σ} (h : S.Reachable s) (hr : S.run s as = .ok s') :
    S.Reachable s' :=
  ReachableWhen.run h (runMeets_true s as) hr

theorem run_append {as bs : List α} : S.run s (as ++ bs) = S.run s as >>= fun t => S.run t bs := by
  induction as generalizing s with
  | nil => rfl
  | cons a rest ih =>
      cases hs : S.step s a with
      | error e => simp only [List.cons_append, System.run, hs]; rfl
      | ok t => simp only [List.cons_append, System.run, hs]; exact ih

def Leads (S : System σ α ε) (s t : σ) : Prop := ∃ as, S.run s as = .ok t

theorem Leads.refl (S : System σ α ε) (s : σ) : S.Leads s s := ⟨[], rfl⟩

theorem Leads.single {a : α} {t : σ} (hs : S.step s a = .ok t) :
    S.Leads s t :=
  ⟨[a], bind_eq_ok.mpr ⟨t, hs, rfl⟩⟩

theorem Leads.reachable {t : σ} (h : S.Leads s t) (hs : S.Reachable s) : S.Reachable t := by
  obtain ⟨as, has⟩ := h
  exact Reachable.run hs has

theorem Leads.trans {t u : σ} (h : S.Leads s t) (h' : S.Leads t u) : S.Leads s u := by
  obtain ⟨as, has⟩ := h
  obtain ⟨bs, hbs⟩ := h'
  refine ⟨as ++ bs, ?_⟩
  rw [run_append, has]
  exact hbs

/-- The result is a state that passes the test. -/
def holdsAfter {σ ε : Type*} (x : Except ε σ) (p : σ → Bool) : Bool :=
  match x with
  | .ok s => p s
  | .error _ => false

theorem exists_of_holdsAfter {x : Except ε σ} {p : σ → Bool} (h : holdsAfter x p = true) :
    ∃ s, x = .ok s ∧ p s = true := by
  cases x with
  | ok s => exact ⟨s, rfl, h⟩
  | error e => cases h

/-- `f n`, with `n` evaluated first. -/
def withValue {β : Type*} (n : Nat) (f : Nat → β) : β :=
  match n with
  | 0 => f 0
  | k + 1 => f (k + 1)

theorem withValue_eq {β : Type*} (n : Nat) (f : Nat → β) : withValue n f = f n := by
  cases n <;> rfl

theorem exists_of_any {x : Option σ} {p : σ → Bool} (h : x.any p = true) : ∃ s, x = some s ∧ p s = true := by
  cases x with
  | some s => exact ⟨s, rfl, h⟩
  | none => cases h

def checkedRun (S : System σ α ε) (check : σ → α → Bool) : σ → List α → Option σ
  | s, [] => some s
  | s, a :: rest =>
      match check s a, S.step s a with
      | true, .ok s' => S.checkedRun check s' rest
      | _, _ => none

theorem run_of_checkedRun {g : σ → α → Prop} {check : σ → α → Bool} {as : List α} {s' : σ}
    (hcheck : ∀ s a, check s a = true → g s a)
    (hr : S.checkedRun check s as = some s') : S.run s as = .ok s' ∧ S.RunMeets g s as := by
  induction as generalizing s with
  | nil =>
      cases hr
      exact ⟨rfl, trivial⟩
  | cons a rest ih =>
      unfold System.checkedRun at hr
      split at hr
      · rename_i hc hs
        obtain ⟨hrun, hmeets⟩ := ih hr
        exact ⟨bind_eq_ok.mpr ⟨_, hs, hrun⟩, (runMeets_cons hs).mpr ⟨hcheck s a hc, hmeets⟩⟩
      · cases hr

theorem ReachableWhen.checkedRun {check : σ → α → Bool} {as : List α} {s' : σ}
    (hcheck : ∀ s a, check s a = true → guard s a) (h : S.ReachableWhen guard s)
    (hr : S.checkedRun check s as = some s') : S.ReachableWhen guard s' := by
  obtain ⟨hrun, hmeets⟩ := run_of_checkedRun hcheck hr
  exact h.run hmeets hrun

theorem exists_of_checkedRun {check : σ → α → Bool} {p : σ → Bool} (as : List α)
    (hcheck : ∀ s a, check s a = true → guard s a) (h : S.ReachableWhen guard s)
    (hr : (S.checkedRun check s as).any p = true) : ∃ s', S.ReachableWhen guard s' ∧ p s' = true := by
  cases hs' : S.checkedRun check s as with
  | none => rw [hs'] at hr; cases hr
  | some s' =>
      rw [hs'] at hr
      exact ⟨s', h.checkedRun hcheck hs', hr⟩

theorem exists_of_decidedRun (g : σ → α → Prop) [∀ s a, Decidable (g s a)] {p : σ → Bool} (as : List α)
    (h : S.ReachableWhen g s) (hr : (S.checkedRun (fun s a => decide (g s a)) s as).any p = true) :
    ∃ s', S.ReachableWhen g s' ∧ p s' = true :=
  exists_of_checkedRun as (fun _ _ => of_decide_eq_true) h hr

theorem runMeets_of_checkedRun {check : σ → α → Bool} {as : List α}
    (hcheck : ∀ s a, check s a = true → guard s a)
    (hr : (S.checkedRun check s as).isSome = true) : S.RunMeets guard s as := by
  obtain ⟨s', hs'⟩ := Option.isSome_iff_exists.mp hr
  exact (run_of_checkedRun hcheck hs').2

def faultOf {σ ε : Type*} : Except ε σ → Option ε
  | .ok _ => none
  | .error e => some e

theorem eq_error_of_faultOf {x : Except ε σ} {e : ε} (h : faultOf x = some e) : x = .error e := by
  cases x with
  | ok s => cases h
  | error e' => exact congrArg Except.error (Option.some.inj h)

end System
end Transition
