import GrowBuffer.Memory.Call
import GrowBuffer.Proofs.Growths

/-! # The ceiling holds

A request is only granted within the ceiling, and what is given without a request is no
longer than something that was granted before. So the ceiling bounds whatever a thread has
got, through any mixture of work on buffers and calls for memory.
-/

namespace GrowBuffer
open Bytes Memory

section Calls

variable {cfg : Config} {limit : Nat} {l : Ledger}

theorem le_of_approve (hc : cfg.ceiling = some limit) {n : Nat} {u : Unit}
    (h : approve cfg n = .ok u) : n ≤ limit :=
  (approve_eq_ok_iff.mp h).1 limit hc

/-- A call that gives a block within the limit, if it gives one, and enters no larger request. -/
inductive Within (limit : Nat) : EStateM.Result Stop Ledger ByteArray → Prop
  | given {block : ByteArray} {l : Ledger} (hb : block.size ≤ limit) (hl : l.peak ≤ limit) :
    Within limit (.ok block l)
  | stopped {e : Stop} {l : Ledger} (hl : l.peak ≤ limit) : Within limit (.error e l)

theorem within_requested (hc : cfg.ceiling = some limit) (hl : l.peak ≤ limit) {bytes : Nat}
    {block : ByteArray} {l' : Ledger} (hb : block.size = bytes)
    (hp : l'.peak = max l.peak bytes) : Within limit (requested cfg bytes block l' l) := by
  cases ha : approve cfg bytes with
  | error why =>
    rw [requested_error ha]
    exact .stopped hl
  | ok u =>
    have hle := le_of_approve hc ha
    rw [requested_ok ha]
    exact .given (hb.trans_le hle) (hp.trans_le (Nat.max_le.mpr ⟨hl, hle⟩))

theorem within_allocate (hc : cfg.ceiling = some limit) (hl : l.peak ≤ limit)
    (count elemSize : Nat) : Within limit (allocate cfg count elemSize l) := by
  rw [allocate_eq]
  split
  · exact .stopped hl
  · split
    · exact .given (Nat.zero_le _) hl
    · exact within_requested hc hl (size_zeroed _) rfl

/-- A block that does not have to become longer is within the limit because it was. -/
theorem within_resize (hc : cfg.ceiling = some limit) (hl : l.peak ≤ limit) {block : ByteArray}
    (hb : block.size ≤ limit) (oldSize newSize : Nat) :
    Within limit (Memory.resize cfg block oldSize newSize l) := by
  rw [resize_eq]
  split
  · exact .given (Nat.zero_le _) (Nat.max_le.mpr ⟨hl, Nat.zero_le _⟩)
  · split
    · exact within_requested hc hl (size_resized _ _ _) rfl
    · have hnew : newSize ≤ limit := by omega
      exact .given ((size_resized _ _ _).trans_le hnew) (Nat.max_le.mpr ⟨hl, hnew⟩)

theorem within_resizeElements (hc : cfg.ceiling = some limit) (hl : l.peak ≤ limit)
    {block : ByteArray} (hb : block.size ≤ limit) (oldCount newCount elemSize : Nat) :
    Within limit (resizeElements cfg block oldCount newCount elemSize l) := by
  rcases resizeElements_cases cfg block oldCount newCount elemSize l with ⟨e, hrun⟩ | hrun
  · rw [hrun]
    exact .stopped hl
  · rw [hrun]
    exact within_resize hc hl hb _ _

theorem within_duplicateAtMost (hc : cfg.ceiling = some limit) (hl : l.peak ≤ limit)
    (text : ByteArray) (n : Nat) : Within limit (duplicateAtMost cfg text n l) := by
  rw [duplicateAtMost_eq]
  split
  · exact .stopped hl
  · rename_i extent hextent
    obtain ⟨-, rfl⟩ := Word.add?_eq_some_iff.mp hextent
    exact within_requested hc hl (size_padded ((length_toList _).trans_le (Nat.le_succ _))) rfl

theorem within_call (hc : cfg.ceiling = some limit) (hl : l.peak ≤ limit) (c : Call)
    (htaken : ∀ block, c.taken? = some block → block.size ≤ limit) :
    Within limit (c.run cfg l) := by
  cases c with
  | allocate count elemSize => exact within_allocate hc hl count elemSize
  | allocateBytes size => exact within_allocate hc hl 1 size
  | resize block oldSize newSize => exact within_resize hc hl (htaken block rfl) oldSize newSize
  | resizeElements block oldCount newCount elemSize =>
    exact within_resizeElements hc hl (htaken block rfl) oldCount newCount elemSize
  | duplicate text => exact within_duplicateAtMost hc hl text text.size
  | duplicateAtMost text n => exact within_duplicateAtMost hc hl text n

end Calls

namespace Buffer

/-- A heap block has been granted, and so was every entry of the ledger. -/
structure Capped (cfg : Config) (limit : Nat) (s : State) : Prop where
  heap : s.buffer.location = .heap →
    cfg.minGrowth ≤ s.buffer.capacity ∧ s.buffer.capacity + 1 ≤ limit
  peak : s.ledger.peak ≤ limit

section Work

variable {cfg : Config} {limit top n : Nat} {s t : State}

theorem peak_ledgerAfterGrowth (b : Buffer) (target : Nat) (l : Ledger) :
    (b.ledgerAfterGrowth target l).peak = max l.peak (target + 1) := by
  rcases b with ⟨_ | _ | _, loan⟩ <;> rfl

theorem Capped.vacated (h : Capped cfg limit s) :
    Capped cfg limit { s with buffer := s.buffer.vacated } :=
  ⟨fun hb => Location.noConfusion hb, h.peak⟩

theorem Capped.course (hc : cfg.ceiling = some limit) (h : Capped cfg limit s)
    (hs : s.buffer.Sound) (hcourse : Course cfg top s n t) : Capped cfg limit t := by
  apply hcourse.keeps hs
  case start => exact h
  case grow =>
    intro n t extra ht ha _ ih
    have hle := le_of_approve hc ha
    constructor
    · rintro -
      rw [capacity_widened ht.wellFormed]
      exact ⟨minGrowth_le_widerCapacity .., hle⟩
    · exact (peak_ledgerAfterGrowth ..).trans_le (Nat.max_le.mpr ⟨ih.peak, hle⟩)
  case work =>
    intro n t b hb ih
    refine ⟨fun hl => ?_, ih.peak⟩
    rw [hb.location] at hl
    rw [hb.capacity]
    exact ih.heap hl

theorem Capped.leads (hc : cfg.ceiling = some limit) (h : Capped cfg limit s)
    (hs : s.buffer.Sound) {α : Type} {r : EStateM.Result Stop State α}
    (hr : Leads cfg top s n r) : Capped cfg limit (stateOf r) := by
  cases hr with
  | finished hcourse => exact h.course hc hs hcourse
  | stopped hcourse _ => exact h.course hc hs hcourse
  | unsupplied hcourse _ => exact (h.course hc hs hcourse).vacated

theorem detach_capped (hc : cfg.ceiling = some limit) (h : Capped cfg limit s)
    (hs : s.buffer.Sound) :
    Capped cfg limit (stateOf (detach cfg s)) ∧
      ∀ d t, detach cfg s = .ok d t → d.terminated.size ≤ limit := by
  have hw := hs.wellFormed
  have hlength := hw.length_le
  have hsize := size_shown hw
  rw [detach_run hw hs.length_lt]
  by_cases hb : s.buffer.location = .heap
  · have hheap := h.heap hb
    rw [if_pos hb]
    refine ⟨h.vacated, ?_⟩
    rintro _ _ ⟨⟩
    show s.buffer.shown.size ≤ limit
    omega
  · rw [if_neg hb]
    cases ha : approve cfg (s.buffer.length + 1) with
    | error why =>
      refine ⟨h.vacated, ?_⟩
      rintro _ _ ⟨⟩
    | ok u =>
      have hle := le_of_approve hc ha
      refine ⟨⟨fun hb => Location.noConfusion hb, Nat.max_le.mpr ⟨h.peak, hle⟩⟩, ?_⟩
      rintro _ _ ⟨⟩
      exact hsize.trans_le hle

theorem Capped.after (hc : cfg.ceiling = some limit) (h : Capped cfg limit s)
    (hs : s.buffer.Sound) (op : Op) : Capped cfg limit (op.after cfg s) := by
  rw [Op.after_eq]
  by_cases hop : op = .detach
  · subst hop
    rw [Op.run, stateOf_map]
    exact (detach_capped hc h hs).1
  · exact h.leads hc hs (Op.run_leads hs hop)

/-- What is given away by an operation that ended so. -/
def givenAway : EStateM.Result Stop State Answer → List Detached
  | .ok (.detached d) _ => [d]
  | _ => []

theorem givenAway_map {α : Type} (x : Work α) {f : α → Answer} (hf : ∀ a d, f a ≠ .detached d)
    (s : State) : givenAway ((do pure (f (← x))) s) = [] := by
  cases h : x s with
  | ok a t =>
    rw [Action.bind_ok h]
    show givenAway (.ok (f a) t) = []
    cases hfa : f a <;> first | rfl | exact absurd hfa (hf _ _)
  | error e t =>
    rw [Action.bind_error h]
    rfl

theorem Op.givenAway_run {op : Op} (hop : op ≠ .detach) (cfg : Config) (s : State) :
    givenAway (op.run cfg s) = [] := by
  cases op with
  | detach => exact absurd rfl hop
  | _ => exact givenAway_map _ (by rintro _ _ ⟨⟩) s

theorem Capped.size_of_givenAway (hc : cfg.ceiling = some limit) (h : Capped cfg limit s)
    (hs : s.buffer.Sound) {op : Op} {d : Detached} (hd : d ∈ givenAway (op.run cfg s)) :
    d.terminated.size ≤ limit := by
  by_cases hop : op = .detach
  · subst hop
    have hsize := (detach_capped hc h hs).2
    rw [Op.run] at hd
    cases hrun : Buffer.detach cfg s with
    | ok d' t =>
      rw [Action.bind_ok hrun] at hd
      obtain rfl := List.mem_singleton.mp hd
      exact hsize d t hrun
    | error e t =>
      rw [Action.bind_error hrun] at hd
      cases hd
  · rw [Op.givenAway_run hop] at hd
    cases hd

theorem grow_refused (hc : cfg.ceiling = some limit) (hm : limit ≤ cfg.minGrowth)
    (h : s.buffer.WellFormed) {extra : Nat} (hx : 0 < extra) :
    ∃ why t, grow cfg extra s = .error (.refused why) t := by
  cases hrun : grow cfg extra s with
  | ok u t =>
    have hle := le_of_approve hc (grow_answered h hx hrun).2
    have hmin := minGrowth_le_widerCapacity cfg s.buffer.capacity extra
    omega
  | error e t =>
    obtain ⟨why, rfl, -⟩ := grow_stopped h hx hrun
    exact ⟨why, t, rfl⟩

end Work
end Buffer

/-- What a thread has got: its buffers, the blocks and the detached contents that it was given,
and its ledger since this was last reset. -/
structure Holdings where
  buffers : List Buffer := []
  blocks : List ByteArray := []
  detached : List Detached := []
  ledger : Ledger := {}

inductive Move where
  | new (b : Buffer)
  | operate (i : Nat) (op : Buffer.Op)
  | call (c : Call)
  | reset

namespace Holdings

/-- Work on a buffer; whoever catches a stop still has what it has left. -/
def operate (cfg : Config) (i : Nat) (op : Buffer.Op) (h : Holdings) : Holdings :=
  match h.buffers[i]? with
  | none => h
  | some b =>
    { h with
      buffers := h.buffers.set i (op.after cfg ⟨b, h.ledger⟩).buffer
      detached := Buffer.givenAway (op.run cfg ⟨b, h.ledger⟩) ++ h.detached
      ledger := (op.after cfg ⟨b, h.ledger⟩).ledger }

def call (cfg : Config) (c : Call) (h : Holdings) : Holdings :=
  match c.run cfg h.ledger with
  | .ok block l => { h with blocks := block :: h.blocks, ledger := l }
  | .error _ l => { h with ledger := l }

def after (cfg : Config) (h : Holdings) : Move → Holdings
  | .new b => { h with buffers := b :: h.buffers }
  | .operate i op => h.operate cfg i op
  | .call c => h.call cfg c
  | .reset => { h with ledger := {} }

/-- A block that was given, or made of a detached content. Whoever has it may have written other
bytes into it or cut it, but it did not become longer by that. -/
def Has (h : Holdings) (block : ByteArray) : Prop :=
  (∃ given ∈ h.blocks, block.size ≤ given.size) ∨
    ∃ d ∈ h.detached, block.size ≤ d.terminated.size

/-- Buffers begin fresh, and a block that is to be resized is empty or one of its own. -/
def Allows (h : Holdings) : Move → Prop
  | .new b => Buffer.Fresh b
  | .call c => ∀ block, c.taken? = some block → block.size = 0 ∨ h.Has block
  | .operate _ _ | .reset => True

/-- The holdings of threads that run under one configuration. -/
inductive Held (cfg : Config) : Holdings → Prop
  | start : Held cfg {}
  | move {h : Holdings} (hh : Held cfg h) (m : Move) (hm : h.Allows m) : Held cfg (h.after cfg m)

/-- Everything that a thread has got is within the limit. -/
structure Bounded (cfg : Config) (limit : Nat) (h : Holdings) : Prop where
  sound : ∀ b ∈ h.buffers, b.Sound
  heap : ∀ b ∈ h.buffers, b.location = .heap →
    cfg.minGrowth ≤ b.capacity ∧ b.capacity + 1 ≤ limit
  blocks : ∀ block ∈ h.blocks, block.size ≤ limit
  detached : ∀ d ∈ h.detached, d.terminated.size ≤ limit
  peak : h.ledger.peak ≤ limit

namespace Bounded

variable {cfg : Config} {limit : Nat} {h : Holdings}

theorem new (hb : Bounded cfg limit h) {b : Buffer} (hfresh : Buffer.Fresh b) :
    Bounded cfg limit { h with buffers := b :: h.buffers } := by
  refine ⟨?_, ?_, hb.blocks, hb.detached, hb.peak⟩
  · exact List.forall_mem_cons.mpr ⟨hfresh.sound, hb.sound⟩
  · exact List.forall_mem_cons.mpr ⟨fun hl => absurd hl hfresh.location_ne_heap, hb.heap⟩

theorem operate (hc : cfg.ceiling = some limit) (hb : Bounded cfg limit h) (i : Nat)
    (op : Buffer.Op) : Bounded cfg limit (h.operate cfg i op) := by
  unfold Holdings.operate
  cases hi : h.buffers[i]? with
  | none => exact hb
  | some b =>
    have hmem := List.mem_of_getElem? hi
    have hs := hb.sound b hmem
    have hcapped : Buffer.Capped cfg limit ⟨b, h.ledger⟩ := ⟨hb.heap b hmem, hb.peak⟩
    have hafter := hcapped.after hc hs op
    -- the buffers are the one that was worked on and those that were there before
    refine ⟨?_, ?_, hb.blocks, ?_, hafter.peak⟩
    · intro c hset
      rcases List.mem_or_eq_of_mem_set hset with hold | rfl
      · exact hb.sound c hold
      · exact Buffer.Op.after_sound (s := ⟨b, h.ledger⟩) hs op
    · intro c hset
      rcases List.mem_or_eq_of_mem_set hset with hold | rfl
      · exact hb.heap c hold
      · exact hafter.heap
    · intro d hd
      rcases List.mem_append.mp hd with hgiven | hold
      · exact hcapped.size_of_givenAway hc hs hgiven
      · exact hb.detached d hold

theorem size_le_of_has (hb : Bounded cfg limit h) {block : ByteArray} (hhas : h.Has block) :
    block.size ≤ limit := by
  rcases hhas with ⟨given, hgiven, hle⟩ | ⟨d, hd, hle⟩
  · exact hle.trans (hb.blocks given hgiven)
  · exact hle.trans (hb.detached d hd)

theorem call (hc : cfg.ceiling = some limit) (hb : Bounded cfg limit h) {c : Call}
    (hm : h.Allows (.call c)) : Bounded cfg limit (h.call cfg c) := by
  have htaken : ∀ block, c.taken? = some block → block.size ≤ limit := by
    intro block ht
    rcases hm block ht with hempty | hhas
    · exact hempty.trans_le (Nat.zero_le _)
    · exact hb.size_le_of_has hhas
  have hwithin : Within limit (c.run cfg h.ledger) := within_call hc hb.peak c htaken
  unfold Holdings.call
  generalize c.run cfg h.ledger = r at hwithin
  cases hwithin with
  | given hblock hl =>
    exact ⟨hb.sound, hb.heap, List.forall_mem_cons.mpr ⟨hblock, hb.blocks⟩, hb.detached, hl⟩
  | stopped hl => exact ⟨hb.sound, hb.heap, hb.blocks, hb.detached, hl⟩

theorem after (hc : cfg.ceiling = some limit) (hb : Bounded cfg limit h) {m : Move}
    (hm : h.Allows m) : Bounded cfg limit (h.after cfg m) := by
  cases m with
  | new b => exact hb.new hm
  | operate i op => exact hb.operate hc i op
  | call c => exact hb.call hc hm
  | reset => exact ⟨hb.sound, hb.heap, hb.blocks, hb.detached, Nat.zero_le _⟩

end Bounded

theorem Held.bounded {cfg : Config} {limit : Nat} (hc : cfg.ceiling = some limit) {h : Holdings}
    (hh : Held cfg h) : Bounded cfg limit h := by
  induction hh with
  | start => constructor <;> simp
  | move _ m hm ih => exact ih.after hc hm

/-- Under a ceiling no block, no heap block of a buffer, no detached content and no entry of
the ledger is larger. A ceiling that the smallest growth exceeds keeps every buffer off the
heap, and all growth is refused. -/
theorem held_within {cfg : Config} {limit : Nat} (hc : cfg.ceiling = some limit) {h : Holdings}
    (hh : Held cfg h) :
    (∀ block ∈ h.blocks, block.size ≤ limit) ∧
      (∀ b ∈ h.buffers, b.location = .heap → b.capacity + 1 ≤ limit) ∧
      (∀ d ∈ h.detached, d.terminated.size ≤ limit) ∧ h.ledger.peak ≤ limit ∧
      (limit ≤ cfg.minGrowth → ∀ b ∈ h.buffers, b.location ≠ .heap ∧
        ∀ l extra, 0 < extra →
          ∃ why t, Buffer.grow cfg extra ⟨b, l⟩ = .error (.refused why) t) := by
  have hb := hh.bounded hc
  refine ⟨hb.blocks, fun b hmem hl => (hb.heap b hmem hl).2, hb.detached, hb.peak, ?_⟩
  intro hm b hmem
  refine ⟨fun hl => ?_, fun l extra hx => ?_⟩
  · have hheap := hb.heap b hmem hl
    omega
  · exact Buffer.grow_refused (s := ⟨b, l⟩) hc hm (hb.sound b hmem).wellFormed hx

/-- Under a ceiling of twelve, a vector that was filled after it was given and one out of detached
content are resized, and the buffer is refused forty bytes. No growth at all starts with twelve. -/
theorem held_within_written :
    let cfg : Config := ⟨4, some 12⟩
    let b : Buffer := ⟨.lent 0, ⟨#[0, 7, 7]⟩⟩
    let lent := ({} : Holdings).after cfg (.new b)
    let grown := lent.after cfg (.operate 0 (.append ⟨#[1, 2, 3, 4]⟩))
    let given := (grown.after cfg (.call (.allocate 4 1))).after cfg (.operate 0 .detach)
    let written := given.after cfg (.call (.resize ⟨#[7, 0, 0, 9]⟩ 4 8))
    let cut := written.after cfg (.call (.resizeElements ⟨#[1, 2, 3, 4]⟩ 2 6 2))
    let h := cut.after cfg (.operate 0 (.reserve 40))
    h.blocks.map toList =
        [[1, 2, 3, 4, 0, 0, 0, 0, 0, 0, 0, 0], [7, 0, 0, 9, 0, 0, 0, 0], [0, 0, 0, 0]] ∧
      h.ledger = ⟨2, 2, 23, 12⟩ ∧ h.ledger.peak ≤ 12 ∧
      ∃ why t, Buffer.grow ⟨12, some 12⟩ 1 ⟨b, {}⟩ = .error (.refused why) t := by
  intro cfg b lent grown given written cut h
  have hfresh : Buffer.Fresh b := .lent ⟨#[7, 7, 7]⟩ (by decide) rfl
  have hlent : Held cfg lent := .move .start (.new b) hfresh
  have hgrown : Held cfg grown := hlent.move (.operate 0 (.append ⟨#[1, 2, 3, 4]⟩)) trivial
  have hcalled : Held cfg _ := hgrown.move (.call (.allocate 4 1)) (by rintro _ ⟨⟩)
  have hgiven : Held cfg given := hcalled.move (.operate 0 .detach) trivial
  have hwritten : Held cfg written := by
    refine hgiven.move (.call (.resize ⟨#[7, 0, 0, 9]⟩ 4 8)) ?_
    rintro _ ⟨⟩
    exact .inr (.inl ⟨⟨#[0, 0, 0, 0]⟩, List.mem_singleton.mpr rfl, Nat.le_refl 4⟩)
  have hcut : Held cfg cut := by
    refine hwritten.move (.call (.resizeElements ⟨#[1, 2, 3, 4]⟩ 2 6 2)) ?_
    rintro _ ⟨⟩
    exact .inr (.inr ⟨⟨⟨#[1, 2, 3, 4, 0]⟩⟩, by decide +kernel, by decide⟩)
  have hstopped : Held cfg h := hcut.move (.operate 0 (.reserve 40)) trivial
  have htight : Held ⟨12, some 12⟩ _ := .move .start (.new b) hfresh
  refine ⟨by decide +kernel, by decide +kernel, (held_within rfl hstopped).2.2.2.1, ?_⟩
  have hgrowth := (held_within rfl htight).2.2.2.2 (Nat.le_refl 12) b List.mem_cons_self
  exact hgrowth.2 {} 1 Nat.one_pos

end Holdings
end GrowBuffer
