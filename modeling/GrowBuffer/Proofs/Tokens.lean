import GrowBuffer.Proofs.Accounting

/-! # One buffer for many tokens

A buffer that is empty takes a token and hands it out again, and is empty as before. What an
inline buffer has moved one byte on is only left-over bytes to the next token, so nothing
depends on the tokens before, as long as each leaves one byte free. The first token that fills
an inline store takes the buffer to the heap, where the others find room.
-/

namespace GrowBuffer.Buffer
open Bytes Memory

def tokenLoop (ws : List ByteArray) : List Op := ws.flatMap fun w => [.append w, .rewind]

def tokensBack (ws : List ByteArray) : List (Except Stop Answer) :=
  ws.flatMap fun w => [.ok (.count w.size), .ok (.bytes w)]

/-- Empty, the buffer has room for the token and need not leave its store to hand it out. -/
def Carries (b : Buffer) (w : ByteArray) : Prop :=
  if b.isInline then 0 ∉ toList w ∧ w.size ≤ inlineSize - 2 else w.size ≤ b.capacity

instance (b : Buffer) (w : ByteArray) : Decidable (b.Carries w) :=
  inferInstanceAs (Decidable (if b.isInline then _ else _))

theorem tokenLoop_cons (w : ByteArray) (ws : List ByteArray) :
    tokenLoop (w :: ws) = .append w :: .rewind :: tokenLoop ws := rfl

theorem tokensBack_cons (w : ByteArray) (ws : List ByteArray) :
    tokensBack (w :: ws) = .ok (.count w.size) :: .ok (.bytes w) :: tokensBack ws := rfl

theorem tokenLoop_append (ws ws' : List ByteArray) :
    tokenLoop (ws ++ ws') = tokenLoop ws ++ tokenLoop ws' :=
  List.flatMap_append

theorem tokensBack_append (ws ws' : List ByteArray) :
    tokensBack (ws ++ ws') = tokensBack ws ++ tokensBack ws' :=
  List.flatMap_append

theorem Carries.of_sameShape {b c : Buffer} {w : ByteArray} (hb : SameShape b c)
    (h : b.Carries w) : c.Carries w := by
  unfold Carries at h ⊢
  rwa [hb.isInline, hb.capacity]

/-- A buffer between two tokens. -/
structure Idle (b : Buffer) : Prop where
  sound : b.Sound
  empty : b.length = 0

section Turn

variable {cfg : Config} {s : State}

theorem append_idle (h : s.buffer.Idle) {w : ByteArray} (hw : w.size ≤ s.buffer.capacity)
    (hn : s.buffer.isInline = true → 0 ∉ toList w) :
    ∃ b, append cfg w s = .ok w.size { s with buffer := b } ∧ SameShape s.buffer b ∧ b.Sound ∧
      b.content = w := by
  have hwf := h.sound.wellFormed
  have hnil : toList s.buffer.content = [] := hwf.content_eq_nil h.empty
  have hf : s.buffer.Fits (toList w) := by
    refine ⟨?_, hn⟩
    rw [length_toList, room, h.empty]
    exact hw
  obtain ⟨b, hrun, hb⟩ := append_absorbs cfg hwf hf
  refine ⟨b, hrun, hb.shape, h.sound.of_sameShape hb.shape hb.wellFormed, ext_toList ?_⟩
  rw [hb.content, hnil, List.nil_append]

theorem idle_restarted {b : Buffer} (h : b.Sound) (hr : b.isInline = true → 0 < b.room) :
    b.restarted.Idle := by
  have hw := wellFormed_restarted h.wellFormed hr
  refine ⟨h.of_sameShape (sameShape_restarted h.wellFormed hr) hw, ?_⟩
  rw [← hw.length_content, content_restarted h.wellFormed hr]
  rfl

theorem turn (cfg : Config) (h : s.buffer.Idle) {w : ByteArray} (hw : s.buffer.Carries w)
    (ops : List Op) :
    ∃ b, SameShape s.buffer b ∧ b.Idle ∧
      runs cfg (.append w :: .rewind :: ops) s =
        (.ok (.count w.size) :: .ok (.bytes w) :: (runs cfg ops { s with buffer := b }).1,
          (runs cfg ops { s with buffer := b }).2) := by
  have hcap : s.buffer.isInline = true → s.buffer.capacity = inlineSize - 1 := capacity_of_inline
  have hinline : inlineSize = 32 := rfl
  obtain ⟨hfit, hnul, hfree⟩ : w.size ≤ s.buffer.capacity ∧
      (s.buffer.isInline = true → 0 ∉ toList w) ∧
      (s.buffer.isInline = true → w.size < s.buffer.capacity) := by
    unfold Carries at hw
    split at hw
    · rename_i hi
      have := hcap hi
      exact ⟨by omega, fun _ => hw.1, fun _ => by omega⟩
    · rename_i hi
      exact ⟨hw, fun hi' => absurd hi' hi, fun hi' => absurd hi' hi⟩
  obtain ⟨b, happend, hshape, hsound, rfl⟩ := append_idle (s := s) h hfit hnul
  have hroom : b.isInline = true → 0 < b.room := by
    intro hi
    have hlt := hfree (hshape.isInline ▸ hi)
    rw [hsound.wellFormed.size_content, ← hshape.capacity] at hlt
    simp only [room]
    omega
  have hrewind : rewind cfg { s with buffer := b } = _ := rewind_in_place hsound.wellFormed hroom
  refine ⟨b.restarted, hshape.trans (sameShape_restarted hsound.wellFormed hroom),
    idle_restarted hsound hroom, ?_⟩
  rw [runs_ok (Action.bind_ok happend), runs_ok (Action.bind_ok hrewind)]

theorem runs_tokenLoop (cfg : Config) (h : s.buffer.Idle) {ws : List ByteArray}
    (hw : ∀ w ∈ ws, s.buffer.Carries w) :
    ∃ b, runs cfg (tokenLoop ws) s = (tokensBack ws, { s with buffer := b }) ∧
      SameShape s.buffer b ∧ b.Idle := by
  induction ws generalizing s with
  | nil => exact ⟨s.buffer, rfl, .refl _, h⟩
  | cons w ws ih =>
    obtain ⟨hfirst, hrest⟩ := List.forall_mem_cons.mp hw
    obtain ⟨b, hshape, hidle, hturn⟩ := turn cfg h hfirst (tokenLoop ws)
    obtain ⟨c, hruns, hshape', hidle'⟩ := ih (s := { s with buffer := b }) hidle
      fun v hv => (hrest v hv).of_sameShape hshape
    refine ⟨c, ?_, hshape.trans hshape', hidle'⟩
    rw [tokenLoop_cons, hturn, hruns, tokensBack_cons]

theorem rewind_full (h : s.buffer.Sound) (hi : s.buffer.isInline = true)
    (hfull : s.buffer.length = s.buffer.capacity)
    (hs : ∀ why t, Op.rewind.run cfg s ≠ .error (.refused why) t) :
    Op.rewind.run cfg s = .ok (.bytes s.buffer.content)
        ⟨(widened cfg 1 s).buffer.restarted, (widened cfg 1 s).ledger⟩ ∧
      approve cfg (widerCapacity cfg s.buffer.capacity 1 + 1) = .ok () := by
  have hw := h.wellFormed
  have hrun : rewind cfg s = (do grow cfg 1; restart) s :=
    rewind_of_full hw hi (Nat.sub_eq_zero_of_le hfull.ge)
  cases hgrow : grow cfg 1 s with
  | error e t =>
    obtain ⟨why, rfl, -⟩ := grow_stopped hw Nat.one_pos hgrow
    exact absurd (Action.bind_error (hrun.trans (Action.bind_error hgrow))) (hs why t)
  | ok u t =>
    obtain ⟨rfl, ha⟩ := grow_answered hw Nat.one_pos hgrow
    have hneed := add_le_widerCapacity cfg s.buffer.capacity 1
    have hwide : (widened cfg 1 s).buffer.WellFormed := wellFormed_grown hw (by omega)
    have hcontent : (widened cfg 1 s).buffer.content = s.buffer.content :=
      ext_toList (toList_content_grown hw)
    have hrestart := restart_run hwide fun hi' => by cases hi'
    rw [hcontent] at hrestart
    exact ⟨Action.bind_ok (hrun.trans ((Action.bind_ok hgrow).trans hrestart)), ha⟩

theorem idle_restarted_widened (h : s.buffer.Sound) (hi : s.buffer.isInline = true)
    (ha : approve cfg (widerCapacity cfg s.buffer.capacity 1 + 1) = .ok ()) :
    let b := (widened cfg 1 s).buffer.restarted
    b.Idle ∧ b.location = .heap ∧ 62 ≤ b.capacity := by
  have hw := h.wellFormed
  have hcap : s.buffer.capacity = 31 := capacity_of_inline hi
  have hdouble := double_le_widerCapacity cfg s.buffer.capacity 1
  have hwide : (widened cfg 1 s).buffer.WellFormed := wellFormed_grown hw (by omega)
  have hsize : (widened cfg 1 s).buffer.store.size =
      widerCapacity cfg s.buffer.capacity 1 + 1 := size_store_grown hw (by omega)
  have hr : (widened cfg 1 s).buffer.isInline = true → 0 < (widened cfg 1 s).buffer.room :=
    fun hi' => by cases hi'
  have hlt : (widened cfg 1 s).buffer.store.size < Word.limit := by
    rw [hsize]
    exact (lt_addressable_of_approve ha).trans addressable_lt_limit
  have hshape := sameShape_restarted hwide hr
  refine ⟨idle_restarted ⟨hwide, hlt, h.loan_lt⟩ hr, hshape.location, ?_⟩
  rw [hshape.capacity, capacity_widened hw]
  omega

end Turn

theorem widerCapacity_inline (cfg : Config) :
    widerCapacity cfg (inlineSize - 1) 1 = max 62 cfg.minGrowth := by
  have hinline : inlineSize = 32 := rfl
  unfold widerCapacity
  omega

/-- The token that fills an inline store takes the buffer to the heap, and no later one asks for
memory again. -/
theorem runs_tokenLoop_full (cfg : Config) {s : State} (h : s.buffer.Idle)
    (hi : s.buffer.isInline = true) {w : ByteArray} (hn : 0 ∉ toList w) (hw : w.size = 31)
    {ws : List ByteArray} (hws : ∀ v ∈ ws, v.size ≤ 31) :
    ∃ b, (Op.append w).run cfg s = .ok (.count 31) { s with buffer := b } ∧ b.location = .inline ∧
      ((∀ why t, Op.rewind.run cfg { s with buffer := b } ≠ .error (.refused why) t) →
        ∃ c, runs cfg (tokenLoop (w :: ws)) s = (tokensBack (w :: ws),
          ⟨c, s.ledger.enterFresh (max 62 cfg.minGrowth + 1)⟩) ∧ c.location = .heap ∧ c.Idle) := by
  have hcap : s.buffer.capacity = 31 := capacity_of_inline hi
  obtain ⟨b, happend, hshape, hsound, rfl⟩ := append_idle (s := s) h (by omega) fun _ => hn
  have hbi : b.isInline = true := hshape.isInline.trans hi
  have hbcap : b.capacity = inlineSize - 1 := capacity_of_inline hbi
  have happend' : (Op.append b.content).run cfg s = .ok (.count 31) { s with buffer := b } :=
    hw ▸ Action.bind_ok happend
  refine ⟨b, happend', beq_iff_eq.mp hbi, fun hs => ?_⟩
  have hfull : b.length = b.capacity := by
    rw [← hsound.wellFormed.size_content, hw, hbcap]
    rfl
  obtain ⟨hrewind, ha⟩ := rewind_full hsound hbi hfull hs
  obtain ⟨hidle, hheap, hroom⟩ := idle_restarted_widened (s := { s with buffer := b }) hsound hbi ha
  have hledger : (widened cfg 1 { s with buffer := b }).ledger =
      s.ledger.enterFresh (max 62 cfg.minGrowth + 1) := by
    have hoff : b.location ≠ .heap := by
      rw [beq_iff_eq.mp hbi]
      exact Location.noConfusion
    rw [← widerCapacity_inline, ← hbcap]
    exact ledgerAfterGrowth_off_heap hoff _ _
  rw [hledger] at hrewind
  generalize (widened cfg 1 { s with buffer := b }).buffer.restarted = d at *
  have hcarries : ∀ v ∈ ws, d.Carries v := by
    intro v hv
    have := hws v hv
    rw [Carries, if_neg]
    · omega
    · rw [isInline, hheap]
      exact Bool.false_ne_true
  obtain ⟨c, hruns, hshape', hc⟩ := runs_tokenLoop cfg
    (s := ⟨d, s.ledger.enterFresh (max 62 cfg.minGrowth + 1)⟩) hidle hcarries
  refine ⟨c, ?_, hshape'.location.trans hheap, hc⟩
  rw [tokenLoop_cons, runs_ok happend', runs_ok hrewind, hruns, tokensBack_cons, hw]

/-- Every reachable buffer that is empty returns all tokens that it carries in order, is empty
again, stays where it is and makes no request for memory. An inline buffer that comes to a token
of thirty-one bytes has not made one either. Unless it is refused then, it returns this token
and all that follow, has made this one request and is on the heap. -/
theorem reachable_tokens {b : Buffer} (h : Reachable b) (hb : b.isEmpty = true) (cfg : Config)
    (l : Ledger) :
    (∀ ws : List ByteArray, (∀ w ∈ ws, b.Carries w) →
      ∃ c, runs cfg (tokenLoop ws) ⟨b, l⟩ = (tokensBack ws, ⟨c, l⟩) ∧
        c.location = b.location ∧ c.isEmpty = true) ∧
    ∀ (ws : List ByteArray) (w : ByteArray) (ws' : List ByteArray), b.location = .inline →
      (∀ v ∈ ws, 0 ∉ toList v ∧ v.size ≤ 30) → 0 ∉ toList w → w.size = 31 →
      (∀ v ∈ ws', v.size ≤ 31) →
      ∃ c, runs cfg (tokenLoop ws ++ [.append w]) ⟨b, l⟩ =
          (tokensBack ws ++ [.ok (.count 31)], ⟨c, l⟩) ∧ c.location = .inline ∧
        ((∀ why t, Op.rewind.run cfg ⟨c, l⟩ ≠ .error (.refused why) t) →
          ∃ t, runs cfg (tokenLoop (ws ++ w :: ws')) ⟨b, l⟩ = (tokensBack (ws ++ w :: ws'), t) ∧
            t.buffer.location = .heap ∧ t.buffer.isEmpty = true ∧
            t.ledger = l.enterFresh (max 62 cfg.minGrowth + 1) ∧
            t.ledger.calls = l.calls + 1) := by
  have hidle : b.Idle := ⟨h.sound, eq_of_beq hb⟩
  constructor
  · intro ws hws
    obtain ⟨c, hruns, hshape, hc⟩ := runs_tokenLoop cfg (s := ⟨b, l⟩) hidle hws
    exact ⟨c, hruns, hshape.location, beq_iff_eq.mpr hc.empty⟩
  · intro ws w ws' hloc hws hn hsize hws'
    have hi : b.isInline = true := beq_iff_eq.mpr hloc
    have hcarries : ∀ v ∈ ws, b.Carries v := fun v hv => by
      rw [Carries, if_pos hi]
      exact hws v hv
    obtain ⟨c, hruns, hshape, hc⟩ := runs_tokenLoop cfg (s := ⟨b, l⟩) hidle hcarries
    obtain ⟨d, happend, hd, hrest⟩ := runs_tokenLoop_full cfg (s := ⟨c, l⟩) hc
      (hshape.isInline.trans hi) hn hsize hws'
    refine ⟨d, ?_, hd, fun hs => ?_⟩
    · rw [runs_append, hruns, runs_ok happend]
      rfl
    · obtain ⟨e, hruns', hheap, he⟩ := hrest hs
      refine ⟨⟨e, l.enterFresh (max 62 cfg.minGrowth + 1)⟩, ?_, hheap, beq_iff_eq.mpr he.empty,
        rfl, Ledger.calls_enterFresh _ _⟩
      rw [tokenLoop_append, runs_append, hruns, hruns', tokensBack_append]

/-- Two bytes of lent memory carry tokens with NULs in them. A new buffer goes to the heap at the
first of two tokens of thirty-one bytes, and carries a NUL behind it. -/
theorem reachable_tokens_long :
    let lent : Buffer := ⟨.lent 0, ⟨#[0, 7, 7]⟩⟩
    let ws : List ByteArray := [⟨#[0, 97]⟩, ⟨#[]⟩, ⟨#[98]⟩]
    let long : ByteArray := ⟨Array.replicate 31 97⟩
    (∃ c, runs ⟨4, none⟩ (tokenLoop ws) ⟨lent, {}⟩ = (tokensBack ws, ⟨c, {}⟩) ∧
      c.location = .lent ∧ c.isEmpty = true) ∧
      ∃ t, runs ⟨4, none⟩ (tokenLoop ([⟨#[98]⟩] ++ long :: [⟨#[0]⟩, long])) ⟨{}, {}⟩ =
          (tokensBack ([⟨#[98]⟩] ++ long :: [⟨#[0]⟩, long]), t) ∧
        t.buffer.location = .heap ∧ t.ledger.calls = 1 := by
  intro lent ws long
  have hlent : Reachable lent := .fresh (.lent ⟨#[7, 7, 7]⟩ (by decide) rfl)
  have hcarries : ∀ w ∈ ws, lent.Carries w := by decide +kernel
  refine ⟨(reachable_tokens hlent rfl ⟨4, none⟩ {}).1 ws hcarries, ?_⟩
  obtain ⟨c, hc, -, hrest⟩ := (reachable_tokens (.fresh .new) rfl ⟨4, none⟩ {}).2 [⟨#[98]⟩] long
    [⟨#[0]⟩, long] rfl (by decide +kernel) (by decide +kernel) rfl (by decide +kernel)
  obtain rfl : (runs ⟨4, none⟩ (tokenLoop [⟨#[98]⟩] ++ [.append long]) ⟨{}, {}⟩).2.buffer = c :=
    congrArg (·.2.buffer) hc
  have hnext : (runs ⟨4, none⟩ [.rewind] ⟨(runs ⟨4, none⟩ (tokenLoop [⟨#[98]⟩] ++
      [.append long]) ⟨{}, {}⟩).2.buffer, {}⟩).1 = [.ok (.bytes long)] := by
    decide +kernel
  obtain ⟨t, hruns, hheap, -, -, hcalls⟩ := hrest fun why t ht => by
    rw [runs, ht] at hnext
    cases hnext
  exact ⟨t, hruns, hheap, hcalls⟩

end GrowBuffer.Buffer
