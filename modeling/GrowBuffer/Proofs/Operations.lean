import GrowBuffer.Proofs.Filling
import GrowBuffer.Proofs.Releasing
import GrowBuffer.Proofs.Widening

/-! # Operations that may grow

Each operation widens its buffer first and then works inside the store. Only the first part
can be refused, so an operation either happens as a whole or leaves one of two states: the
one it began with, or the one without storage.
-/

namespace GrowBuffer.Buffer
open Bytes Format Memory

/-- What every reachable buffer is: well formed, and of a size that can be written down. -/
structure Sound (b : Buffer) : Prop where
  wellFormed : b.WellFormed
  store_lt : b.store.size < Word.limit
  loan_lt : b.loan.size < Word.limit

theorem Sound.of_sameShape {b c : Buffer} (h : b.Sound) (hb : SameShape b c)
    (hw : c.WellFormed) : c.Sound :=
  ⟨hw, hb.store ▸ h.store_lt, hb.loan ▸ h.loan_lt⟩

theorem Sound.length_lt {b : Buffer} (h : b.Sound) : b.length + 1 < Word.limit :=
  Nat.lt_of_le_of_lt h.wellFormed.length_lt h.store_lt

section Append

variable {cfg : Config} {s : State}

theorem appendByte_dropped {c : UInt8} (hc : s.buffer.isInline && c == 0) :
    appendByte cfg c s = .ok () s := by
  rw [appendByte, Action.bind_ok (current_run s), if_pos hc]
  rfl

theorem appendByte_ends (h : s.buffer.WellFormed) {c : UInt8}
    (hc : (s.buffer.isInline && c == 0) = false) :
    Ends s (fun _ t => ∃ e, Widened cfg s e ∧ 0 < e.buffer.room ∧
      t = { e with buffer := e.buffer.bytePlaced c }) (appendByte cfg c s) := by
  have hgrow := growIfFull_ends cfg h
  rw [appendByte, Action.bind_ok (current_run s), if_neg (by simp [hc])]
  rw [Action.bind_ok (current_run s), Action.bind_ok (readCapacity_run h)]
  have hrest : ∀ (_ : Unit) t, Widened cfg s t ∧ 0 < t.buffer.room →
      ∃ u v, placeByte c t = .ok u v ∧ ∃ e, Widened cfg s e ∧ 0 < e.buffer.room ∧
        v = { e with buffer := e.buffer.bytePlaced c } := by
    rintro _ t ⟨hw, hr⟩
    exact ⟨_, _, placeByte_run (hw.wellFormed h) hr, t, hw, hr, rfl⟩
  have hbind := hgrow.bind hrest
  split
  · rename_i hfull
    rwa [if_pos hfull] at hbind
  · rename_i hfull
    rwa [if_neg hfull] at hbind

theorem append_empty {w : ByteArray} (hw : w.size = 0) : append cfg w s = .ok 0 s := by
  rw [append, if_pos hw]
  rfl

theorem append_ends (h : s.buffer.WellFormed) {w : ByteArray} (hw : w.size ≠ 0) :
    Ends s (fun n t => n = w.size ∧ ∃ e, Widened cfg s e ∧ w.size ≤ e.buffer.room ∧
      (e.buffer.isInline = true → 0 ∉ toList w) ∧
      t = { e with buffer := e.buffer.placed w }) (append cfg w s) := by
  rw [append, if_neg hw, Action.bind_ok (current_run s)]
  by_cases hn : (s.buffer.isInline && hasNul w) = true
  · simp only [if_pos hn]
    apply (grow_widens h (by omega)).bind
    rintro _ t ⟨hwide, hroom, -, -, hout⟩
    have hr : w.size ≤ t.buffer.room := by omega
    have ht := hwide.wellFormed h
    rw [Action.bind_ok (reserve_of_room ht hr), place_run ht hr]
    refine ⟨_, _, rfl, rfl, t, hwide, hr, fun hi => ?_, rfl⟩
    rw [hout] at hi
    cases hi
  · simp only [if_neg hn]
    apply (reserve_ends h w.size).bind
    rintro _ t ⟨hwide, hr⟩
    rw [place_run (hwide.wellFormed h) hr]
    refine ⟨_, _, rfl, rfl, t, hwide, hr, fun hi => ?_, rfl⟩
    obtain rfl := hwide.eq_of_isInline hi
    rw [hi, Bool.true_and, hasNul_iff] at hn
    exact hn

end Append

section Print

variable {cfg : Config} {s : State}

theorem ensure_ends (cfg : Config) (h : s.buffer.WellFormed) (size : Nat) :
    Ends s (fun _ t => Widened cfg s t ∧ size ≤ t.buffer.room) (ensure cfg size s) := by
  rw [ensure, Action.bind_ok (readRoom_run h)]
  by_cases hr : s.buffer.room < size
  · rw [if_pos hr]
    apply (grow_widens h (by omega)).mono
    rintro _ t ⟨hw, hroom, -⟩
    exact ⟨hw, by omega⟩
  · rw [if_neg hr]
    exact .finished ⟨.refl, by omega⟩

/-- A buffer that has grown can always count the one byte more that may be missing. -/
theorem ensure_of_granted (h : s.buffer.WellFormed) (hmin : cfg.minGrowth ≤ s.buffer.capacity)
    (hsmall : s.buffer.capacity < addressable) (size : Nat) (hr : size ≤ s.buffer.room + 1) :
    (∃ t, ensure cfg size s = .ok () t ∧ Widened cfg s t ∧ size ≤ t.buffer.room) ∨
      ∃ why, why.isOverflow = false ∧
        ensure cfg size s = .error (.refused why) { s with buffer := s.buffer.vacated } := by
  have hrun : ensure cfg size s =
      (if s.buffer.room < size then grow cfg (size - s.buffer.room) else pure ()) s := by
    rw [ensure, Action.bind_ok (readRoom_run h)]
  have hends := ensure_ends cfg h size
  rw [hrun] at hends ⊢
  by_cases hroom : s.buffer.room < size
  · obtain ⟨target, htarget⟩ :
        ∃ target, targetCapacity cfg s.buffer.capacity (size - s.buffer.room) = .ok target :=
      targetCapacity_of_granted hmin hsmall (by omega)
    rw [if_pos hroom, grow_run h (by omega), htarget] at hends ⊢
    simp only at hends ⊢
    cases ha : approve cfg (target + 1) with
    | error why => exact .inr ⟨why, not_isOverflow_of_approve ha, rfl⟩
    | ok u =>
      rw [ha] at hends
      cases hends with
      | finished ht => exact .inl ⟨_, rfl, ht⟩
  · rw [if_neg hroom]
    exact .inl ⟨s, rfl, .refl, by omega⟩

theorem makeRoom_ends (h : s.buffer.Sound) {m : Measure} (hl : m.length < Word.limit)
    (hm : m.hasNul = true → 0 < m.length) :
    Ends s (fun _ t => Widened cfg s t ∧ m.length < t.buffer.room ∧
      (t.buffer.isInline = true → m.hasNul = false)) (makeRoom cfg m s) := by
  have hw := h.wellFormed
  -- the saturated size is the whole size, as no buffer has that much room
  have hroom : ∀ {t : State}, Widened cfg s t →
      min (m.length + 1) Word.largest ≤ t.buffer.room → m.length < t.buffer.room := by
    intro t ht hr
    have hlt := ht.store_lt hw (Nat.le_of_lt addressable_lt_limit) h.store_lt
    have := (ht.wellFormed hw).length_add_room
    have : Word.largest + 1 = Word.limit := rfl
    omega
  rw [makeRoom, Action.bind_ok (current_run s)]
  by_cases hn : (s.buffer.isInline && m.hasNul) = true
  · simp only [if_pos hn]
    have hgrow : Ends s _ (grow cfg m.length s) :=
      grow_widens hw (hm (Bool.and_eq_true_iff.mp hn).2)
    generalize hr : grow cfg m.length s = r at hgrow
    cases hgrow with
    | uncountable hwhy =>
      rw [Action.bind_error hr]
      exact .uncountable hwhy
    | unsupplied hwhy l =>
      rw [Action.bind_error hr]
      exact .unsupplied hwhy l
    | @finished _ t ht =>
      obtain ⟨hwide, hmore, hmin, hsmall, hout⟩ := ht
      rw [Action.bind_ok hr]
      rcases ensure_of_granted (hwide.wellFormed hw) hmin hsmall
        (min (m.length + 1) Word.largest) (by omega) with ⟨u, hu, hwide', hr'⟩ | ⟨why, hwhy, hu⟩
      · rw [hu]
        refine .finished ⟨hwide.trans hwide', hroom (hwide.trans hwide') hr', fun hi => ?_⟩
        obtain rfl := hwide'.eq_of_isInline hi
        rw [hout] at hi
        cases hi
      · rw [hu, hwide.vacated]
        exact .unsupplied hwhy t.ledger
  · simp only [if_neg hn]
    apply (ensure_ends cfg hw _).mono
    rintro _ t ⟨hwide, hr⟩
    refine ⟨hwide, hroom hwide hr, fun hi => ?_⟩
    obtain rfl := hwide.eq_of_isInline hi
    simpa [hi] using hn

theorem measure_run (p : Pass) (s : State) :
    (∃ count, measure p s = .error (.refused (.freshOverflow count 1)) s) ∨
      (bytesOf p.writes).length < Word.limit ∧ measure p s = .ok (Measure.of? p) s := by
  unfold measure
  cases ho : Measure.overflow? {} p.writes with
  | some count => exact .inl ⟨count, rfl⟩
  | none =>
    have hlt := (Measure.overflow?_eq_none_iff (by decide) _).mp ho
    rw [Nat.zero_add] at hlt
    exact .inr ⟨hlt, rfl⟩

/-- What a print does when both of its passes had their say. -/
theorem print_ends (h : s.buffer.Sound) (f : Formatted) :
    Ends s (fun n t =>
      (f.measured.givesUp = true ∧ n = none ∧ t = s) ∨
      f.measured.givesUp = false ∧ ∃ e, Widened cfg s e ∧
        (bytesOf f.measured.writes).length < e.buffer.room ∧
        (e.buffer.isInline = true → 0 ∉ bytesOf f.measured.writes) ∧
        n = (if (e.buffer.windowAfter f.written (bytesOf f.measured.writes).length).2 then
            some (e.buffer.windowAfter f.written (bytesOf f.measured.writes).length).1.filled
          else none) ∧
        t = { e with buffer := e.buffer.filled f.written (bytesOf f.measured.writes).length })
      (print cfg f s) := by
  unfold print
  rcases measure_run f.measured s with ⟨count, hrun⟩ | ⟨hl, hrun⟩
  · rw [Action.bind_error hrun]
    exact .uncountable rfl
  rw [Action.bind_ok hrun]
  rcases f with ⟨⟨ws, _ | _⟩, p⟩
  · rw [Measure.of?_completes]
    have hlen := Measure.length_total ws
    have hnul := Measure.hasNul_total ws
    refine (makeRoom_ends h (by rwa [hlen]) ?_).bind ?_
    · intro hz
      rw [hlen]
      exact List.length_pos_of_mem (hnul.mp hz)
    · rintro _ t ⟨hwide, hr, hi⟩
      rw [hlen] at hr
      refine ⟨_, _, by rw [hlen]; exact fill_run (hwide.wellFormed h.wellFormed) hr, .inr ?_⟩
      refine ⟨rfl, t, hwide, hr, fun hin => ?_, rfl, rfl⟩
      rw [← hnul, hi hin]
      exact Bool.false_ne_true
  · exact .finished (.inl ⟨rfl, rfl, rfl⟩)

end Print

theorem rewind_ends {cfg : Config} {s : State} (h : s.buffer.WellFormed) :
    Ends s (fun shown t => shown = s.buffer.content ∧ ∃ e, Widened cfg s e ∧
      (e.buffer.isInline = true → 0 < e.buffer.room) ∧
      t = { e with buffer := e.buffer.restarted }) (rewind cfg s) := by
  have hrest : ∀ {t : State}, Widened cfg s t → (t.buffer.isInline = true → 0 < t.buffer.room) →
      ∃ shown u, restart t = .ok shown u ∧ shown = s.buffer.content ∧ ∃ e, Widened cfg s e ∧
        (e.buffer.isInline = true → 0 < e.buffer.room) ∧
        u = { e with buffer := e.buffer.restarted } := by
    intro t hwide hr
    have hshown : t.buffer.content = s.buffer.content := ext_toList (hwide.content h)
    exact ⟨_, _, restart_run (hwide.wellFormed h) hr, hshown, t, hwide, hr, rfl⟩
  rw [rewind, Action.bind_ok (current_run s), Action.bind_ok (current_run s),
    Action.bind_ok (readCapacity_run h)]
  by_cases hfull : (s.buffer.isInline && decide (s.buffer.length ≥ s.buffer.capacity)) = true
  · simp only [if_pos hfull]
    apply (grow_widens h (by omega)).bind
    rintro _ t ⟨hwide, -, -, -, hout⟩
    apply hrest hwide
    intro hi
    rw [hout] at hi
    cases hi
  · simp only [if_neg hfull]
    obtain ⟨shown, u, hu, hd⟩ := hrest .refl fun hi => by
      rw [hi, Bool.true_and, decide_eq_true_eq] at hfull
      simp only [room]
      omega
    rw [hu]
    exact .finished hd

end GrowBuffer.Buffer
