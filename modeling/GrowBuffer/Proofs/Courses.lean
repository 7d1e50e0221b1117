import GrowBuffer.Proofs.Refinement

/-! # Courses of growth

What an operation does to its buffer is growth, work inside the store, or giving the storage
up. A course is made of the first two and counts the growths; it also knows how far they have
gone. Every operation but detachment leads along a course, to its end or to the place where
memory was refused.
-/

namespace GrowBuffer.Buffer
open Bytes Format Memory

/-- The capacity that growth by `extra` leads to. -/
def widerCapacity (cfg : Config) (capacity extra : Nat) : Nat :=
  max (max (2 * capacity) cfg.minGrowth) (capacity + extra)

theorem double_le_widerCapacity (cfg : Config) (capacity extra : Nat) :
    2 * capacity ≤ widerCapacity cfg capacity extra :=
  (Nat.le_max_left _ _).trans (Nat.le_max_left _ _)

theorem minGrowth_le_widerCapacity (cfg : Config) (capacity extra : Nat) :
    cfg.minGrowth ≤ widerCapacity cfg capacity extra :=
  (Nat.le_max_right _ _).trans (Nat.le_max_left _ _)

theorem add_le_widerCapacity (cfg : Config) (capacity extra : Nat) :
    capacity + extra ≤ widerCapacity cfg capacity extra :=
  Nat.le_max_right _ _

/-- Below the range of addresses doubling is no matter of overflow. -/
theorem targetCapacity_eq {cfg : Config} {capacity extra target : Nat}
    (h : targetCapacity cfg capacity extra = .ok target) (hsmall : target < addressable) :
    target = widerCapacity cfg capacity extra := by
  have hlimit : 2 * addressable < Word.limit := by decide
  obtain ⟨rfl, -⟩ := targetCapacity_eq_ok_iff.mp h
  have hneed := add_le_aim cfg capacity extra
  rw [aim, if_pos (by omega), widerCapacity]

section Growth

variable {cfg : Config} {s t : State} {extra : Nat}

/-- The buffer on a block of the wider capacity, and the ledger with that block entered. -/
def widened (cfg : Config) (extra : Nat) (s : State) : State :=
  let target := widerCapacity cfg s.buffer.capacity extra
  ⟨s.buffer.grown target, s.buffer.ledgerAfterGrowth target s.ledger⟩

theorem capacity_widened (h : s.buffer.WellFormed) :
    (widened cfg extra s).buffer.capacity = widerCapacity cfg s.buffer.capacity extra := by
  have hneed := add_le_widerCapacity cfg s.buffer.capacity extra
  exact capacity_grown h (by omega)

theorem grow_answered (h : s.buffer.WellFormed) (hx : 0 < extra)
    (hrun : grow cfg extra s = .ok () t) :
    t = widened cfg extra s ∧
      approve cfg (widerCapacity cfg s.buffer.capacity extra + 1) = .ok () := by
  rw [grow_run h hx] at hrun
  cases htarget : targetCapacity cfg s.buffer.capacity extra with
  | error why =>
    rw [htarget] at hrun
    cases hrun
  | ok target =>
    rw [htarget] at hrun
    simp only at hrun
    cases ha : approve cfg (target + 1) with
    | error why =>
      rw [ha] at hrun
      cases hrun
    | ok u =>
      rw [ha] at hrun
      have hsmall := lt_addressable_of_approve ha
      obtain rfl := targetCapacity_eq htarget (by omega)
      cases hrun
      exact ⟨rfl, ha⟩

theorem grow_stopped (h : s.buffer.WellFormed) (hx : 0 < extra) {e : Stop}
    (hrun : grow cfg extra s = .error e t) :
    ∃ why, e = .refused why ∧
      (why.isOverflow = true ∧ t = s ∨
        why.isOverflow = false ∧ t = { s with buffer := s.buffer.vacated }) := by
  rw [grow_run h hx] at hrun
  cases htarget : targetCapacity cfg s.buffer.capacity extra with
  | error why =>
    rw [htarget] at hrun
    cases hrun
    exact ⟨why, rfl, .inl ⟨targetCapacity_error htarget, rfl⟩⟩
  | ok target =>
    rw [htarget] at hrun
    simp only at hrun
    cases ha : approve cfg (target + 1) with
    | error why =>
      rw [ha] at hrun
      cases hrun
      exact ⟨why, rfl, .inr ⟨not_isOverflow_of_approve ha, rfl⟩⟩
    | ok u =>
      rw [ha] at hrun
      cases hrun

end Growth

/-- From `s` to `t` by `n` growths, none of them beyond a capacity of `top`, and by work that
keeps the shape of the buffer. -/
inductive Course (cfg : Config) (top : Nat) (s : State) : Nat → State → Prop
  | start : Course cfg top s 0 s
  | grow {n : Nat} {t u : State} {extra : Nat} (h : Course cfg top s n t) (hx : 0 < extra)
      (hrun : grow cfg extra t = .ok () u)
      (htop : widerCapacity cfg t.buffer.capacity extra ≤ top) : Course cfg top s (n + 1) u
  | work {n : Nat} {t : State} {b : Buffer} (h : Course cfg top s n t)
      (hb : SameShape t.buffer b) (hw : b.WellFormed) :
      Course cfg top s n { t with buffer := b }

namespace Course

variable {cfg : Config} {top : Nat} {s t u : State} {m n : Nat}

theorem trans (h : Course cfg top s m t) (k : Course cfg top t n u) :
    Course cfg top s (m + n) u := by
  induction k with
  | start => exact h
  | grow _ hx hrun htop ih => exact .grow ih hx hrun htop
  | work _ hb hw ih => exact .work ih hb hw

theorem mono (h : Course cfg top s n t) {top' : Nat} (ht : top ≤ top') :
    Course cfg top' s n t := by
  induction h with
  | start => exact .start
  | grow _ hx hrun htop ih => exact .grow ih hx hrun (htop.trans ht)
  | work _ hb hw ih => exact .work ih hb hw

theorem sound (h : Course cfg top s n t) (hs : s.buffer.Sound) : t.buffer.Sound := by
  induction h with
  | start => exact hs
  | @grow n t u extra _ hx hrun _ ih =>
    obtain ⟨rfl, ha⟩ := grow_answered ih.wellFormed hx hrun
    have hneed := add_le_widerCapacity cfg t.buffer.capacity extra
    have hsize : (widened cfg extra t).buffer.store.size =
        widerCapacity cfg t.buffer.capacity extra + 1 :=
      size_store_grown ih.wellFormed (by omega)
    refine ⟨wellFormed_grown ih.wellFormed (by omega), ?_, ih.loan_lt⟩
    rw [hsize]
    exact (lt_addressable_of_approve ha).trans addressable_lt_limit
  | work _ hb hw ih =>
    refine ⟨hw, ?_, ?_⟩
    · rw [hb.store]
      exact ih.store_lt
    · rw [hb.loan]
      exact ih.loan_lt

/-- What holds at the start and is kept by approved growth and by work holds along a course. -/
theorem keeps {P : Nat → State → Prop} (h : Course cfg top s n t) (hs : s.buffer.Sound)
    (start : P 0 s)
    (grow : ∀ {n t extra}, t.buffer.Sound →
      approve cfg (widerCapacity cfg t.buffer.capacity extra + 1) = .ok () →
      widerCapacity cfg t.buffer.capacity extra ≤ top → P n t → P (n + 1) (widened cfg extra t))
    (work : ∀ {n t b}, SameShape t.buffer b → P n t → P n { t with buffer := b }) : P n t := by
  induction h with
  | start => exact start
  | grow hcourse hx hrun htop ih =>
    have ht := hcourse.sound hs
    obtain ⟨rfl, ha⟩ := grow_answered ht.wellFormed hx hrun
    exact grow ht ha htop ih
  | work _ hb _ ih => exact work hb ih

end Course

/-- An action of `n` growths: it follows a course, to its end or up to a size that cannot be
computed or a mistake, unless memory is refused and the storage lost where the course has
got to. -/
inductive Leads (cfg : Config) (top : Nat) (s : State) (n : Nat) {α : Type} :
    EStateM.Result Stop State α → Prop
  | finished {a : α} {t : State} (h : Course cfg top s n t) : Leads cfg top s n (.ok a t)
  | stopped {e : Stop} {t : State} (h : Course cfg top s n t)
      (he : ∀ why, e = .refused why → why.isOverflow = true) : Leads cfg top s n (.error e t)
  | unsupplied {why : Refusal} {t : State} (h : Course cfg top s n t)
      (hwhy : why.isOverflow = false) :
      Leads cfg top s n (.error (.refused why) { t with buffer := t.buffer.vacated })

/-- What `next` counts from where an action has answered; nothing if it was stopped. -/
def ifAnswered {α : Type} (x : Work α) (next : State → Nat) (s : State) : Nat :=
  match x s with
  | .ok _ t => next t
  | .error _ _ => 0

theorem ifAnswered_ok {α : Type} {x : Work α} {s t : State} {a : α} (h : x s = .ok a t)
    (next : State → Nat) : ifAnswered x next s = next t := by
  rw [ifAnswered, h]

theorem ifAnswered_error {α : Type} {x : Work α} {s t : State} {e : Stop}
    (h : x s = .error e t) (next : State → Nat) : ifAnswered x next s = 0 := by
  rw [ifAnswered, h]

@[simp] theorem ifAnswered_zero {α : Type} (x : Work α) (s : State) :
    ifAnswered x (fun _ => 0) s = 0 := by
  unfold ifAnswered
  split <;> rfl

/-- A growth by `extra` counts if it is answered. -/
def growthsBy (cfg : Config) (extra : Nat) : State → Nat := ifAnswered (grow cfg extra) fun _ => 1

/-- With room for `size` bytes the action is answered and works inside the store. -/
def WorksIn {α : Type} (size : Nat) (x : Work α) : Prop :=
  ∀ t : State, t.buffer.Sound → size ≤ t.buffer.room →
    ∃ a b, x t = .ok a { t with buffer := b } ∧ SameShape t.buffer b ∧ b.WellFormed

namespace Leads

variable {cfg : Config} {top : Nat} {s t : State} {m n : Nat} {α β : Type}

theorem after (h : Course cfg top s m t) {r : EStateM.Result Stop State α}
    (hr : Leads cfg top t n r) : Leads cfg top s (m + n) r := by
  cases hr with
  | finished k => exact .finished (h.trans k)
  | stopped k he => exact .stopped (h.trans k) he
  | unsupplied k hwhy => exact .unsupplied (h.trans k) hwhy

theorem mono {r : EStateM.Result Stop State α} (h : Leads cfg top s n r) {top' : Nat}
    (ht : top ≤ top') : Leads cfg top' s n r := by
  cases h with
  | finished h => exact .finished (h.mono ht)
  | stopped h he => exact .stopped (h.mono ht) he
  | unsupplied h hwhy => exact .unsupplied (h.mono ht) hwhy

theorem of_ok {r : EStateM.Result Stop State α} {a : α} (h : Leads cfg top s n r)
    (hr : r = .ok a t) : Course cfg top s n t := by
  subst hr
  cases h with
  | finished hcourse => exact hcourse

theorem bind {x : Work α} {f : α → Work β} {next : State → Nat} (h : Leads cfg top s n (x s))
    (hf : ∀ a t, x s = .ok a t → Leads cfg top t (next t) (f a t)) :
    Leads cfg top s (n + ifAnswered x next s) ((x >>= f) s) := by
  generalize hr : x s = r at h
  cases h with
  | finished h =>
    rw [Action.bind_ok hr, ifAnswered_ok hr]
    exact (hf _ _ hr).after h
  | stopped h he =>
    rw [Action.bind_error hr, ifAnswered_error hr]
    exact .stopped h he
  | unsupplied h hwhy =>
    rw [Action.bind_error hr, ifAnswered_error hr]
    exact .unsupplied h hwhy

theorem bind_zero {x : Work α} {f : α → Work β} (h : Leads cfg top s n (x s))
    (hf : ∀ a t, x s = .ok a t → Leads cfg top t 0 (f a t)) :
    Leads cfg top s n ((x >>= f) s) := by
  have hbind : Leads cfg top s (n + ifAnswered x (fun _ => 0) s) ((x >>= f) s) := h.bind hf
  rwa [ifAnswered_zero] at hbind

theorem map {x : Work α} {f : α → β} (h : Leads cfg top s n (x s)) :
    Leads cfg top s n ((do pure (f (← x))) s) :=
  h.bind_zero fun _ _ _ => .finished .start

theorem of_same {r : EStateM.Result Stop State α} {a : α} (hr : r = .ok a s) :
    Leads cfg top s 0 r := by
  rw [hr]
  exact .finished .start

theorem of_work {size : Nat} {x : Work α} (hx : WorksIn size x) (hs : s.buffer.Sound)
    (hr : size ≤ s.buffer.room) : Leads cfg top s 0 (x s) := by
  obtain ⟨a, b, hrun, hb, hw⟩ := hx s hs hr
  rw [hrun]
  exact .finished (.work .start hb hw)

theorem grow {extra : Nat} (h : s.buffer.WellFormed) (hx : 0 < extra)
    (htop : widerCapacity cfg s.buffer.capacity extra ≤ top) :
    Leads cfg top s (growthsBy cfg extra s) (Buffer.grow cfg extra s) := by
  unfold growthsBy
  cases hr : Buffer.grow cfg extra s with
  | ok u t =>
    rw [ifAnswered_ok hr]
    exact .finished (.grow .start hx hr htop)
  | error e t =>
    rw [ifAnswered_error hr]
    obtain ⟨why, rfl, ⟨hwhy, rfl⟩ | ⟨hwhy, rfl⟩⟩ := grow_stopped h hx hr
    · refine .stopped .start ?_
      rintro _ ⟨⟩
      exact hwhy
    · exact .unsupplied .start hwhy

theorem grow_work {extra size : Nat} {f : Unit → Work α} (h : s.buffer.Sound) (hx : 0 < extra)
    (htop : widerCapacity cfg s.buffer.capacity extra ≤ top) (hf : WorksIn size (f ()))
    (hsize : size ≤ s.buffer.room + extra) :
    Leads cfg top s (growthsBy cfg extra s) ((Buffer.grow cfg extra >>= f) s) := by
  have hgrow : Leads cfg top s _ (Buffer.grow cfg extra s) := grow h.wellFormed hx htop
  have hwide : Ends s _ (Buffer.grow cfg extra s) := grow_widens h.wellFormed hx
  apply hgrow.bind_zero
  rintro _ t hrun
  obtain ⟨-, hroom, -⟩ := hwide.of_ok hrun
  exact of_work hf ((hgrow.of_ok hrun).sound h) (hsize.trans hroom)

end Leads
end GrowBuffer.Buffer
