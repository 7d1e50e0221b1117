import GrowBuffer.Proofs.Courses

/-! # How often operations grow, and how far

An operation grows its buffer when what it asks for does not fit, and a NUL makes an inline
buffer grow even if it would. A print may have to grow twice: a text with a NUL is moved to the
heap first, and its terminator may lack one byte there. No growth goes beyond twice of what was
asked for, the configured minimum, or twice an inline store.
-/

namespace GrowBuffer.Buffer
open Bytes Format Memory

/-- The largest capacity that growth for a content of `demand` bytes may lead to; sixty-two is
twice the capacity of an inline store. -/
def capacityFor (cfg : Config) (demand : Nat) : Nat :=
  max (max cfg.minGrowth 62) (2 * demand)

theorem capacityFor_mono (cfg : Config) {d d' : Nat} (h : d ≤ d') :
    capacityFor cfg d ≤ capacityFor cfg d' := by
  unfold capacityFor
  omega

theorem widerCapacity_le {cfg : Config} {capacity extra demand : Nat}
    (hd : 2 * capacity ≤ max 62 (2 * demand)) (hx : capacity + extra ≤ max 62 (2 * demand)) :
    widerCapacity cfg capacity extra ≤ capacityFor cfg demand := by
  unfold widerCapacity capacityFor
  omega

theorem WellFormed.room_add_length {b : Buffer} (h : b.WellFormed) :
    b.room + b.length = b.capacity := by
  have := h.length_le
  simp only [room]
  omega

theorem widerCapacity_le_of_excess {cfg : Config} {capacity extra demand : Nat}
    (hd : capacity ≤ demand) (hx : capacity + extra ≤ 2 * demand) :
    widerCapacity cfg capacity extra ≤ capacityFor cfg demand :=
  widerCapacity_le (by omega) (by omega)

theorem widerCapacity_le_of_inline {cfg : Config} {b : Buffer} (hi : b.isInline = true)
    {extra demand : Nat} (hx : extra ≤ demand) :
    widerCapacity cfg b.capacity extra ≤ capacityFor cfg demand := by
  rw [capacity_of_inline hi]
  have hcap : inlineSize - 1 = 31 := rfl
  exact widerCapacity_le (by omega) (by omega)

section Count

variable (cfg : Config)

def growthsToAppendByte (c : UInt8) (s : State) : Nat :=
  if (s.buffer.isInline && c == 0) = true ∨ 0 < s.buffer.room then 0 else growthsBy cfg 1 s

def growthsToAppend (w : ByteArray) (s : State) : Nat :=
  if s.buffer.Fits (toList w) then 0 else growthsBy cfg w.size s

def growthsToAppendTexts : List String → State → Nat
  | [], _ => 0
  | x :: xs, s =>
    growthsToAppend cfg x.toUTF8 s + ifAnswered (appendText cfg x) (growthsToAppendTexts xs) s

def growthsToReserve (extra : Nat) (s : State) : Nat :=
  if s.buffer.room < extra then growthsBy cfg extra s else 0

def growthsToEnsure (size : Nat) (s : State) : Nat :=
  if s.buffer.room < size then growthsBy cfg (size - s.buffer.room) s else 0

/-- The growth that moves a NUL off an inline store may be followed by one for the terminator. -/
def growthsToMakeRoom (m : Measure) (s : State) : Nat :=
  let size := min (m.length + 1) Word.largest
  if s.buffer.isInline && m.hasNul then
    growthsBy cfg m.length s + ifAnswered (grow cfg m.length) (growthsToEnsure cfg size) s
  else growthsToEnsure cfg size s

def growthsToPrint (f : Formatted) (s : State) : Nat :=
  match measure f.measured s with
  | .ok (some m) _ => growthsToMakeRoom cfg m s
  | _ => 0

def growthsToRewind (s : State) : Nat :=
  if s.buffer.isInline = true ∧ s.buffer.room = 0 then growthsBy cfg 1 s else 0

/-- How often an operation has its buffer grow. -/
def Op.growths : Op → State → Nat
  | appendByte c => growthsToAppendByte cfg c
  | append w => growthsToAppend cfg w
  | appendText x => growthsToAppend cfg x.toUTF8
  | print f => growthsToPrint cfg f
  | stream p => growthsToAppendTexts cfg p.writes
  | reserve extra => growthsToReserve cfg extra
  | rewind => growthsToRewind cfg
  | pop | clear | spare | writeSpare _ _ | commit _ | terminate | detach => fun _ => 0

/-- How often a run has its buffer grow. -/
def growths : List Op → State → Nat
  | [], _ => 0
  | op :: ops, s => op.growths cfg s + growths ops (op.after cfg s)

end Count

section Demand

variable (cfg : Config)

/-- The texts of a stream are asked for one by one, as long as they are appended. -/
def demandOfTexts : List String → State → Nat
  | [], _ => 0
  | x :: xs, s =>
    max (s.buffer.length + x.toUTF8.size) (ifAnswered (appendText cfg x) (demandOfTexts xs) s)

/-- A print asks for its measured text and a terminator. -/
def demandOfPrint (f : Formatted) (s : State) : Nat :=
  match measure f.measured s with
  | .ok (some m) _ => s.buffer.length + m.length + 1
  | _ => 0

/-- The length of content that an operation asks to be possible. -/
def Op.demand : Op → State → Nat
  | appendByte _ => fun s => s.buffer.length + 1
  | append w => fun s => s.buffer.length + w.size
  | appendText x => fun s => s.buffer.length + x.toUTF8.size
  | print f => demandOfPrint f
  | stream p => demandOfTexts cfg p.writes
  | reserve extra => fun s => s.buffer.length + extra
  | pop | clear | spare | writeSpare _ _ | commit _ | terminate | rewind | detach => fun _ => 0

/-- The largest demand of a run. -/
def largestDemand : List Op → State → Nat
  | [], _ => 0
  | op :: ops, s => max (op.demand cfg s) (largestDemand ops (op.after cfg s))

end Demand

section Work

theorem placeByte_worksIn (c : UInt8) : WorksIn 1 (placeByte c) := fun _ ht hr =>
  ⟨_, _, placeByte_run ht.wellFormed hr, sameShape_bytePlaced ht.wellFormed hr,
    wellFormed_bytePlaced ht.wellFormed hr⟩

theorem place_worksIn (w : ByteArray) : WorksIn w.size (place w) := fun _ ht hr =>
  ⟨_, _, place_run ht.wellFormed hr, sameShape_placed ht.wellFormed hr,
    wellFormed_placed ht.wellFormed hr⟩

theorem reserve_place_worksIn (cfg : Config) (w : ByteArray) :
    WorksIn w.size (do reserve cfg w.size; place w) := fun t ht hr => by
  rw [Action.bind_ok (reserve_of_room ht.wellFormed hr)]
  exact place_worksIn w t ht hr

/-- The saturated size of a text and its terminator is the whole size, as no buffer has that
much room. -/
theorem fill_worksIn (p : Pass) (n : Nat) : WorksIn (min (n + 1) Word.largest) (fill p n) := by
  intro t ht hr
  have hn : n < t.buffer.room := by
    have hlt := ht.store_lt
    have := ht.wellFormed.length_add_room
    have : Word.largest + 1 = Word.limit := rfl
    omega
  exact ⟨_, _, fill_run ht.wellFormed hn, sameShape_filled ht.wellFormed hn,
    wellFormed_filled ht.wellFormed hn⟩

theorem restart_worksIn : WorksIn 1 restart := fun _ ht hr =>
  ⟨_, _, restart_run ht.wellFormed fun _ => hr, sameShape_restarted ht.wellFormed fun _ => hr,
    wellFormed_restarted ht.wellFormed fun _ => hr⟩

theorem pop_worksIn : WorksIn 0 pop := by
  intro t ht _
  have hw := ht.wellFormed
  rw [pop_run hw]
  by_cases hz : t.buffer.length = 0
  · rw [if_pos hz]
    exact ⟨_, t.buffer, rfl, .refl _, hw⟩
  · have hn : t.buffer.length - 1 < t.buffer.store.size := by have := hw.length_lt; omega
    rw [if_neg hz]
    exact ⟨_, _, rfl, sameShape_endedAt hn, wellFormed_endedAt hn hw⟩

theorem clear_worksIn : WorksIn 0 clear := fun _ ht _ =>
  ⟨_, _, clear_run ht.wellFormed, sameShape_endedAt ht.wellFormed.store_pos,
    wellFormed_endedAt ht.wellFormed.store_pos ht.wellFormed⟩

theorem spare_worksIn : WorksIn 0 spare := fun t ht _ =>
  ⟨_, t.buffer, spare_run ht.wellFormed, .refl _, ht.wellFormed⟩

theorem writeSpare_worksIn (start : Nat) (w : ByteArray) : WorksIn 0 (writeSpare start w) :=
  fun _ ht _ => ⟨_, _, writeSpare_run ht.wellFormed start w, sameShape_scribbled ht.wellFormed,
    wellFormed_scribbled ht.wellFormed⟩

theorem commit_worksIn (n : Nat) : WorksIn n (commit n) := by
  intro t ht hr
  have hw := ht.wellFormed
  have hn : t.buffer.length + n < t.buffer.store.size := by
    have := hw.length_add_room
    omega
  refine ⟨(), _, ?_, sameShape_endedAt hn, wellFormed_endedAt hn hw⟩
  rw [commit_run hw, if_neg (by omega)]

theorem terminate_worksIn : WorksIn 0 terminate := fun _ ht _ =>
  ⟨_, _, terminate_run ht.wellFormed, sameShape_terminated ht.wellFormed,
    wellFormed_terminated ht.wellFormed⟩

theorem pure_worksIn {α : Type} (size : Nat) (a : α) : WorksIn size (pure a) :=
  fun t ht _ => ⟨a, t.buffer, rfl, .refl _, ht.wellFormed⟩

end Work

section Step

variable {cfg : Config} {s : State} {α : Type}

theorem Leads.grow_unless {top size extra : Nat} {x : Work Unit} {f : Unit → Work α}
    (h : s.buffer.Sound)
    (hx : x s = (if s.buffer.room < size then Buffer.grow cfg extra else pure ()) s)
    (hextra : size ≤ s.buffer.room + extra)
    (htop : s.buffer.room < size → widerCapacity cfg s.buffer.capacity extra ≤ top)
    (hf : WorksIn size (f ())) :
    Leads cfg top s (if s.buffer.room < size then growthsBy cfg extra s else 0)
      ((x >>= f) s) := by
  rw [Action.bind_congr hx]
  by_cases hr : s.buffer.room < size
  · rw [if_pos hr, if_pos hr]
    exact grow_work h (by omega) (htop hr) hf hextra
  · rw [if_neg hr, if_neg hr]
    exact of_work hf h (by omega)

theorem appendByte_leads (h : s.buffer.Sound) (c : UInt8) :
    Leads cfg (capacityFor cfg (s.buffer.length + 1)) s (growthsToAppendByte cfg c s)
      (appendByte cfg c s) := by
  have hsum := h.wellFormed.room_add_length
  unfold growthsToAppendByte
  by_cases hc : (s.buffer.isInline && c == 0) = true
  · rw [if_pos (.inl hc)]
    exact .of_same (appendByte_dropped hc)
  rw [appendByte, Action.bind_ok (current_run s), if_neg hc, Action.bind_ok (current_run s),
    Action.bind_ok (readCapacity_run h.wellFormed)]
  by_cases hr : 0 < s.buffer.room
  · rw [if_pos (.inr hr), if_neg (by omega)]
    exact .of_work (placeByte_worksIn c) h hr
  · rw [if_neg (not_or_intro hc hr), if_pos (by omega)]
    have htop : widerCapacity cfg s.buffer.capacity 1 ≤ capacityFor cfg (s.buffer.length + 1) :=
      widerCapacity_le_of_excess (by omega) (by omega)
    exact .grow_work h Nat.one_pos htop (placeByte_worksIn c) (by omega)

theorem reserve_work {size demand : Nat} {f : Unit → Work α} (h : s.buffer.Sound)
    (hd : s.buffer.length + size ≤ demand) (hf : WorksIn size (f ())) :
    Leads cfg (capacityFor cfg demand) s (growthsToReserve cfg size s)
      ((reserve cfg size >>= f) s) := by
  have hsum := h.wellFormed.room_add_length
  have hrun : reserve cfg size s =
      (if s.buffer.room < size then grow cfg size else pure ()) s := by
    rw [reserve, Action.bind_ok (readRoom_run h.wellFormed)]
  exact .grow_unless h hrun (by omega)
    (fun hr => widerCapacity_le_of_excess (by omega) (by omega)) hf

theorem ensure_work {size demand : Nat} {f : Unit → Work α} (h : s.buffer.Sound)
    (hd : s.buffer.length + size ≤ demand) (hf : WorksIn size (f ())) :
    Leads cfg (capacityFor cfg demand) s (growthsToEnsure cfg size s)
      ((ensure cfg size >>= f) s) := by
  have hsum := h.wellFormed.room_add_length
  have hrun : ensure cfg size s =
      (if s.buffer.room < size then grow cfg (size - s.buffer.room) else pure ()) s := by
    rw [ensure, Action.bind_ok (readRoom_run h.wellFormed)]
  exact .grow_unless h hrun (by omega)
    (fun hr => widerCapacity_le_of_excess (by omega) (by omega)) hf

theorem append_leads (h : s.buffer.Sound) (w : ByteArray) :
    Leads cfg (capacityFor cfg (s.buffer.length + w.size)) s (growthsToAppend cfg w s)
      (append cfg w s) := by
  have hw := h.wellFormed
  unfold growthsToAppend
  by_cases hf : s.buffer.Fits (toList w)
  · obtain ⟨b, hrun, hb⟩ := append_absorbs cfg hw hf
    rw [if_pos hf, hrun]
    exact .finished (.work .start hb.shape hb.wellFormed)
  · have hz : w.size ≠ 0 := by
      intro hz
      apply hf
      rw [toList_nil_iff.mpr hz]
      exact ⟨Nat.zero_le _, fun _ => List.not_mem_nil⟩
    rw [if_neg hf, append, if_neg hz, Action.bind_ok (current_run s)]
    by_cases hn : (s.buffer.isInline && hasNul w) = true
    · simp only [if_pos hn]
      have htop : widerCapacity cfg s.buffer.capacity w.size ≤
          capacityFor cfg (s.buffer.length + w.size) :=
        widerCapacity_le_of_inline (Bool.and_eq_true_iff.mp hn).1 (by omega)
      exact .grow_work h (by omega) htop (reserve_place_worksIn cfg w) (by omega)
    · simp only [if_neg hn]
      have hr : s.buffer.room < w.size := by
        by_contra hr
        rw [Bool.and_eq_true, hasNul_iff, not_and] at hn
        exact hf ⟨by rw [length_toList]; omega, hn⟩
      have hreserve : Leads cfg (capacityFor cfg (s.buffer.length + w.size)) s _
          ((do reserve cfg w.size; place w) s) :=
        reserve_work h (Nat.le_refl _) (place_worksIn w)
      rwa [growthsToReserve, if_pos hr] at hreserve

theorem appendTexts_leads (h : s.buffer.Sound) (xs : List String) :
    Leads cfg (capacityFor cfg (demandOfTexts cfg xs s)) s (growthsToAppendTexts cfg xs s)
      (appendTexts cfg xs s) := by
  -- on the texts; the course of the first one keeps the buffer sound for the others
  induction xs generalizing s with
  | nil => exact .finished .start
  | cons x xs ih =>
    have hone : Leads cfg (capacityFor cfg (demandOfTexts cfg (x :: xs) s)) s _
        (appendText cfg x s) :=
      (append_leads h x.toUTF8).mono (capacityFor_mono cfg (Nat.le_max_left _ _))
    apply hone.bind
    intro n t hrun
    apply (ih ((hone.of_ok hrun).sound h)).mono
    apply capacityFor_mono
    rw [demandOfTexts, ifAnswered_ok hrun]
    exact Nat.le_max_right _ _

theorem makeRoom_work {m : Measure} {demand : Nat} {f : Unit → Work α} (h : s.buffer.Sound)
    (hm : m.hasNul = true → 0 < m.length) (hd : s.buffer.length + m.length + 1 ≤ demand)
    (hf : WorksIn (min (m.length + 1) Word.largest) (f ())) :
    Leads cfg (capacityFor cfg demand) s (growthsToMakeRoom cfg m s)
      ((makeRoom cfg m >>= f) s) := by
  have hsize := Nat.min_le_left (m.length + 1) Word.largest
  unfold growthsToMakeRoom
  -- a text with a NUL leaves an inline store first, and may need its last byte separately
  by_cases hn : (s.buffer.isInline && m.hasNul) = true
  · obtain ⟨hi, hnul⟩ := Bool.and_eq_true_iff.mp hn
    have hrun : makeRoom cfg m s =
        (do grow cfg m.length; ensure cfg (min (m.length + 1) Word.largest)) s := by
      rw [makeRoom, Action.bind_ok (current_run s), if_pos hn]
    simp only [if_pos hn]
    rw [Action.bind_congr hrun, bind_assoc]
    have htop : widerCapacity cfg s.buffer.capacity m.length ≤ capacityFor cfg demand :=
      widerCapacity_le_of_inline hi (by omega)
    have hgrow : Leads cfg (capacityFor cfg demand) s _ (grow cfg m.length s) :=
      .grow h.wellFormed (hm hnul) htop
    apply hgrow.bind
    intro _ t ht
    obtain ⟨rfl, -⟩ := grow_answered h.wellFormed (hm hnul) ht
    refine ensure_work ((hgrow.of_ok ht).sound h) ?_ hf
    show s.buffer.length + _ ≤ demand
    omega
  · have hrun : makeRoom cfg m s = ensure cfg (min (m.length + 1) Word.largest) s := by
      rw [makeRoom, Action.bind_ok (current_run s), if_neg hn]
    simp only [if_neg hn]
    rw [Action.bind_congr hrun]
    exact ensure_work h (by omega) hf

theorem print_leads (h : s.buffer.Sound) (f : Formatted) :
    Leads cfg (capacityFor cfg (demandOfPrint f s)) s (growthsToPrint cfg f s)
      (print cfg f s) := by
  unfold growthsToPrint demandOfPrint print
  rcases measure_run f.measured s with ⟨count, hrun⟩ | ⟨-, hrun⟩
  · rw [Action.bind_error hrun, hrun]
    refine .stopped .start ?_
    rintro _ ⟨⟩
    rfl
  rw [Action.bind_ok hrun, hrun]
  rcases f with ⟨⟨ws, _ | _⟩, p⟩
  · have hnul : (ws.foldl Measure.write {}).hasNul = true →
        0 < (ws.foldl Measure.write {}).length := by
      rw [Measure.hasNul_total, Measure.length_total]
      exact List.length_pos_of_mem
    exact makeRoom_work h hnul (Nat.le_refl _) (fill_worksIn p _)
  · exact .finished .start

theorem rewind_leads (h : s.buffer.Sound) {top : Nat} (htop : capacityFor cfg 0 ≤ top) :
    Leads cfg top s (growthsToRewind cfg s) (rewind cfg s) := by
  have hsum := h.wellFormed.room_add_length
  unfold growthsToRewind
  rw [rewind, Action.bind_ok (current_run s), Action.bind_ok (current_run s),
    Action.bind_ok (readCapacity_run h.wellFormed)]
  by_cases hfull : s.buffer.isInline = true ∧ s.buffer.room = 0
  · have hcond : (s.buffer.isInline && decide (s.buffer.length ≥ s.buffer.capacity)) = true := by
      rw [Bool.and_eq_true, decide_eq_true_eq]
      exact ⟨hfull.1, by omega⟩
    have hcap := capacity_of_inline hfull.1
    simp only [if_pos hcond, if_pos hfull]
    refine .grow_work h Nat.one_pos ?_ restart_worksIn (by omega)
    refine (widerCapacity_le ?_ ?_).trans htop
    all_goals rw [hcap]; decide
  · have hcond : ¬ (s.buffer.isInline && decide (s.buffer.length ≥ s.buffer.capacity)) = true := by
      rw [Bool.and_eq_true, decide_eq_true_eq]
      rintro ⟨hi, hfill⟩
      exact hfull ⟨hi, by omega⟩
    have hr : s.buffer.isInline = true → 0 < s.buffer.room := fun hi =>
      Nat.pos_of_ne_zero fun hz => hfull ⟨hi, hz⟩
    simp only [if_neg hcond, if_neg hfull]
    rw [restart_run h.wellFormed hr]
    exact .finished (.work .start (sameShape_restarted h.wellFormed hr)
      (wellFormed_restarted h.wellFormed hr))

/-- Every operation but detachment leads along a course of as many growths as it makes, none
of them beyond what its demand explains. -/
theorem Op.run_leads (h : s.buffer.Sound) {op : Op} (hop : op ≠ .detach) :
    Leads cfg (capacityFor cfg (op.demand cfg s)) s (op.growths cfg s) (op.run cfg s) := by
  cases op with
  | appendByte c => exact (appendByte_leads h c).map
  | append w => exact (append_leads h w).map
  | appendText x => exact (append_leads h x.toUTF8).map
  | print f => exact (print_leads h f).map
  | stream p => exact ((appendTexts_leads h p.writes).map).map
  | pop => exact (Leads.of_work pop_worksIn h (Nat.zero_le _)).map
  | clear => exact (Leads.of_work clear_worksIn h (Nat.zero_le _)).map
  | reserve extra => exact reserve_work h (Nat.le_refl _) (pure_worksIn extra _)
  | spare => exact (Leads.of_work spare_worksIn h (Nat.zero_le _)).map
  | writeSpare start w => exact (Leads.of_work (writeSpare_worksIn start w) h (Nat.zero_le _)).map
  | commit n =>
    by_cases hn : s.buffer.room < n
    · rw [run_commit_excess h hn]
      exact .stopped .start fun why hwhy => by cases hwhy
    · exact (Leads.of_work (commit_worksIn n) h (by omega)).map
  | terminate => exact (Leads.of_work terminate_worksIn h (Nat.zero_le _)).map
  | rewind => exact (rewind_leads h (Nat.le_refl _)).map
  | detach => exact absurd rfl hop

end Step

/-- Whether a step was stopped for want of memory. A size that cannot be computed is never asked
for, so it is no such case. -/
def lacksMemory : Except Stop Answer → Bool
  | .error (.refused why) => !why.isOverflow
  | _ => false

/-- No step was refused memory. -/
def Supplied (outcomes : List (Except Stop Answer)) : Prop := ∀ o ∈ outcomes, lacksMemory o = false

instance (outcomes : List (Except Stop Answer)) : Decidable (Supplied outcomes) :=
  inferInstanceAs (Decidable (∀ o ∈ outcomes, lacksMemory o = false))

section Runs

variable {cfg : Config} {s : State} {op : Op} {ops : List Op}

theorem Supplied.head (hs : Supplied (runs cfg (op :: ops) s).1) {why : Refusal} {t : State}
    (hrun : op.run cfg s = .error (.refused why) t) : why.isOverflow = true := by
  have hfirst : lacksMemory (.error (.refused why)) = false := by
    apply hs
    rw [runs, hrun]
    exact List.mem_cons_self
  simpa [lacksMemory] using hfirst

theorem Supplied.tail (hs : Supplied (runs cfg (op :: ops) s).1) :
    Supplied (runs cfg ops (op.after cfg s)).1 := by
  intro o ho
  apply hs
  unfold Op.after at ho
  rw [runs]
  split at ho
  · exact List.mem_cons_of_mem _ ho
  · exact List.mem_cons_of_mem _ ho

theorem Leads.after_op {top n : Nat} (h : Leads cfg top s n (op.run cfg s))
    (hs : ∀ {why t}, op.run cfg s = .error (.refused why) t → why.isOverflow = true) :
    Course cfg top s n (op.after cfg s) := by
  unfold Op.after
  generalize op.run cfg s = r at h hs
  cases h with
  | finished hcourse => exact hcourse
  | stopped hcourse _ => exact hcourse
  | unsupplied _ hwhy =>
    rw [hs rfl] at hwhy
    cases hwhy

theorem runs_course (h : s.buffer.Sound) (hops : Op.detach ∉ ops)
    (hs : Supplied (runs cfg ops s).1) :
    Course cfg (capacityFor cfg (largestDemand cfg ops s)) s (growths cfg ops s)
      (runs cfg ops s).2 := by
  -- on the operations; a course that is followed keeps the buffer sound for the next one
  induction ops generalizing s with
  | nil => exact .start
  | cons op ops ih =>
    rw [List.mem_cons, not_or] at hops
    have hfirst : Course cfg (capacityFor cfg (op.demand cfg s)) s _ (op.after cfg s) :=
      (Op.run_leads h (Ne.symm hops.1)).after_op hs.head
    have hrest : Course cfg _ (op.after cfg s) _ _ := ih (hfirst.sound h) hops.2 hs.tail
    rw [runs_cons]
    apply (hfirst.mono _).trans (hrest.mono _)
    · exact capacityFor_mono cfg (Nat.le_max_left _ _)
    · exact capacityFor_mono cfg (Nat.le_max_right _ _)

end Runs
end GrowBuffer.Buffer
