import GrowBuffer.Proofs.Runs

/-! # Memory on loan

A buffer that is not on lent memory has no use for the loan. Whatever is on loan, its
operations go the same way and leave the loan as it is.
-/

namespace GrowBuffer

/-- The storage is the buffer's own. -/
def Storage.Own : Storage → Prop
  | .inline _ => True
  | .heap _ _ => True
  | .lent _ => False

namespace Buffer
open Format Memory

section Own

variable {st : Storage} (h : st.Own) (loan : ByteArray)
include h

theorem store_own : store ⟨st, loan⟩ = store ⟨st, .empty⟩ := by
  rcases st with _ | _ | _
  · rfl
  · rfl
  · exact h.elim

theorem capacity_own : capacity ⟨st, loan⟩ = capacity ⟨st, .empty⟩ := by
  rcases st with _ | _ | _
  · rfl
  · rfl
  · exact h.elim

theorem overwrite_own (start : Nat) (w : ByteArray) :
    overwrite ⟨st, loan⟩ start w = ⟨(overwrite ⟨st, .empty⟩ start w).storage, loan⟩ ∧
      (overwrite ⟨st, .empty⟩ start w).storage.Own := by
  rcases st with _ | _ | _
  · exact ⟨rfl, trivial⟩
  · exact ⟨rfl, trivial⟩
  · exact h.elim

theorem setLength_own (n : Nat) :
    setLength ⟨st, loan⟩ n = ⟨(setLength ⟨st, .empty⟩ n).storage, loan⟩ ∧
      (setLength ⟨st, .empty⟩ n).storage.Own := by
  rcases st with _ | _ | _
  · exact ⟨rfl, trivial⟩
  · exact ⟨rfl, trivial⟩
  · exact h.elim

end Own

/-- From a storage of its own an action goes one way for all loans, and stays off them. -/
inductive Unlent {α : Type} (x : Work α) (st : Storage) (l : Ledger) : Prop
  | ok (a : α) (st' : Storage) (l' : Ledger) (h : st'.Own)
      (hrun : ∀ loan, x ⟨⟨st, loan⟩, l⟩ = .ok a ⟨⟨st', loan⟩, l'⟩)
  | error (e : Stop) (st' : Storage) (l' : Ledger) (h : st'.Own)
      (hrun : ∀ loan, x ⟨⟨st, loan⟩, l⟩ = .error e ⟨⟨st', loan⟩, l'⟩)

/-- An action that is of no concern to whoever has lent memory. -/
def OffLoan {α : Type} (x : Work α) : Prop := ∀ st l, st.Own → Unlent x st l

namespace OffLoan

variable {α β : Type}

theorem pure (a : α) : OffLoan (pure a) := fun st l h => .ok a st l h fun _ => rfl

theorem throw (e : Stop) : OffLoan (throw e : Work α) := fun st l h => .error e st l h fun _ => rfl

theorem bind {x : Work α} {f : α → Work β} (hx : OffLoan x) (hf : ∀ a, OffLoan (f a)) :
    OffLoan (x >>= f) := by
  intro st l h
  cases hx st l h with
  | ok a st' l' h' hrun =>
    cases hf a st' l' h' with
    | ok b st'' l'' h'' hrun' =>
      exact .ok b st'' l'' h'' fun loan => by rw [Action.bind_ok (hrun loan), hrun']
    | error e st'' l'' h'' hrun' =>
      exact .error e st'' l'' h'' fun loan => by rw [Action.bind_ok (hrun loan), hrun']
  | error e st' l' h' hrun =>
    exact .error e st' l' h' fun loan => Action.bind_error (hrun loan)

/-- What is read of the present buffer has to come from its storage. -/
theorem current {f : Buffer → Work β} (hstorage : ∀ st loan loan', f ⟨st, loan⟩ = f ⟨st, loan'⟩)
    (hf : ∀ st, st.Own → OffLoan (f ⟨st, .empty⟩)) : OffLoan (current >>= f) := by
  intro st l h
  have hrun : ∀ loan, (Buffer.current >>= f) ⟨⟨st, loan⟩, l⟩ = f ⟨st, .empty⟩ ⟨⟨st, loan⟩, l⟩ := by
    intro loan
    rw [Action.bind_ok (current_run _), hstorage st loan .empty]
  cases hf st h st l h with
  | ok a st' l' h' hrun' => exact .ok a st' l' h' fun loan => (hrun loan).trans (hrun' loan)
  | error e st' l' h' hrun' => exact .error e st' l' h' fun loan => (hrun loan).trans (hrun' loan)

theorem ite {c : Prop} [Decidable c] {x y : Work α} (hx : OffLoan x) (hy : OffLoan y) :
    OffLoan (if c then x else y) := by
  split
  · exact hx
  · exact hy

theorem grant (r : Except Refusal α) : OffLoan (Action.grant r : Work α) := by
  cases r with
  | ok a => exact pure a
  | error why => exact throw _

theorem require (mistake : Fault) (o : Option α) : OffLoan (Action.require mistake o : Work α) := by
  cases o with
  | some a => exact pure a
  | none => exact throw _

theorem onLedger (act : Action Ledger α) : OffLoan (onLedger act) := by
  intro st l h
  cases hr : act l with
  | ok a l' => exact .ok a st l' h fun _ => onLedger_ok hr
  | error e l' => exact .error e st l' h fun _ => onLedger_error hr

theorem readCapacity : OffLoan readCapacity := by
  intro st l h
  by_cases hs : 0 < (store ⟨st, .empty⟩).size
  · apply Unlent.ok (capacity ⟨st, .empty⟩) st l h
    intro loan
    rw [Buffer.readCapacity, if_pos (by rwa [store_own h]), capacity_own h]
  · apply Unlent.error (.faulted .outOfRange) st l h
    intro loan
    rw [Buffer.readCapacity, if_neg (by rwa [store_own h])]

theorem readRoom : OffLoan readRoom := by
  intro st l h
  by_cases hs : 0 < (store ⟨st, .empty⟩).size ∧
      length ⟨st, .empty⟩ ≤ capacity ⟨st, .empty⟩
  · apply Unlent.ok (capacity ⟨st, .empty⟩ - length ⟨st, .empty⟩) st l h
    intro loan
    rw [Buffer.readRoom, if_pos (by rwa [store_own h, capacity_own h]), capacity_own h]
    rfl
  · apply Unlent.error (.faulted .outOfRange) st l h
    intro loan
    rw [Buffer.readRoom, if_neg (by rwa [store_own h, capacity_own h])]

theorem slice (start stop : Nat) : OffLoan (slice start stop) := by
  intro st l h
  by_cases hs : start ≤ stop ∧ stop ≤ (store ⟨st, .empty⟩).size
  · apply Unlent.ok ((store ⟨st, .empty⟩).extract start stop) st l h
    intro loan
    rw [Buffer.slice, if_pos (by rwa [store_own h]), store_own h]
  · apply Unlent.error (.faulted .outOfRange) st l h
    intro loan
    rw [Buffer.slice, if_neg (by rwa [store_own h])]

theorem write (start : Nat) (w : ByteArray) : OffLoan (write start w) := by
  intro st l h
  by_cases hs : start + w.size ≤ (store ⟨st, .empty⟩).size
  · apply Unlent.ok () _ l (overwrite_own h .empty start w).2
    intro loan
    rw [Buffer.write, if_pos (by rwa [store_own h]), (overwrite_own h loan start w).1]
  · apply Unlent.error (.faulted .outOfRange) st l h
    intro loan
    rw [Buffer.write, if_neg (by rwa [store_own h])]

theorem putLength (n : Nat) : OffLoan (putLength n) := by
  intro st l h
  apply Unlent.ok () _ l (setLength_own h .empty n).2
  intro loan
  rw [Buffer.putLength, (setLength_own h loan n).1]

theorem vacate : OffLoan vacate := fun _ l _ => .ok () .empty l trivial fun _ => rfl

theorem settle (block : ByteArray) (n : Nat) : OffLoan (settle block n) :=
  fun _ l _ => .ok () (.heap block n) l trivial fun _ => rfl

theorem grow (cfg : Config) (extra : Nat) : OffLoan (grow cfg extra) := by
  apply current (fun _ _ _ => rfl)
  intro st h
  apply readCapacity.bind
  intro capacity
  apply (grant _).bind
  intro target
  rcases st with store | ⟨block, n⟩ | n
  · exact (slice _ _).bind fun _ => vacate.bind fun _ => (onLedger _).bind fun _ => settle _ _
  · exact vacate.bind fun _ => (onLedger _).bind fun _ => settle _ _
  · exact h.elim

theorem reserve (cfg : Config) (extra : Nat) : OffLoan (reserve cfg extra) :=
  readRoom.bind fun _ => ite (grow _ _) (pure ())

theorem placeByte (c : UInt8) : OffLoan (placeByte c) :=
  current (fun _ _ _ => rfl) fun _ _ =>
    ite (write _ _) ((write _ _).bind fun _ => putLength _)

theorem appendByte (cfg : Config) (c : UInt8) : OffLoan (appendByte cfg c) := by
  apply current (fun _ _ _ => rfl)
  intro _ _
  apply ite (pure ())
  apply current (fun _ _ _ => rfl)
  intro _ _
  apply readCapacity.bind
  intro _
  exact ite ((grow _ _).bind fun _ => placeByte _) (placeByte _)

theorem place (w : ByteArray) : OffLoan (place w) :=
  current (fun _ _ _ => rfl) fun _ _ =>
    (write _ _).bind fun _ => (putLength _).bind fun _ => pure _

theorem append (cfg : Config) (w : ByteArray) : OffLoan (append cfg w) := by
  have hrest : OffLoan (do Buffer.reserve cfg w.size; Buffer.place w) :=
    (reserve _ _).bind fun _ => place _
  apply ite (pure 0)
  apply current (fun _ _ _ => rfl)
  intro _ _
  exact ite ((grow _ _).bind fun _ => hrest) hrest

theorem appendTexts (cfg : Config) (ss : List String) : OffLoan (appendTexts cfg ss) := by
  induction ss with
  | nil => exact pure ()
  | cons s ss ih => exact (append cfg s.toUTF8).bind fun _ => ih

theorem pop : OffLoan pop := by
  apply current (fun _ _ _ => rfl)
  intro _ _
  apply ite (pure none)
  apply (slice _ _).bind
  intro _
  exact ite ((write _ _).bind fun _ => pure _) ((putLength _).bind fun _ => pure _)

theorem clear : OffLoan clear :=
  current (fun _ _ _ => rfl) fun _ _ => ite (write _ _) (putLength _)

theorem spare : OffLoan spare :=
  current (fun _ _ _ => rfl) fun _ _ => readCapacity.bind fun _ => slice _ _

theorem writeSpare (start : Nat) (w : ByteArray) : OffLoan (writeSpare start w) :=
  spare.bind fun _ => current (fun _ _ _ => rfl) fun _ _ => write _ _

theorem commit (n : Nat) : OffLoan (commit n) :=
  readRoom.bind fun _ => ite (throw _) <|
    current (fun _ _ _ => rfl) fun _ _ => ite (write _ _) (putLength _)

theorem measure (p : Pass) : OffLoan (measure p) := by
  unfold Buffer.measure
  split
  · exact throw _
  · exact pure _

theorem ensure (cfg : Config) (size : Nat) : OffLoan (ensure cfg size) :=
  readRoom.bind fun _ => ite (grow _ _) (pure ())

theorem makeRoom (cfg : Config) (m : Measure) : OffLoan (makeRoom cfg m) :=
  current (fun _ _ _ => rfl) fun _ _ => ite ((grow _ _).bind fun _ => ensure _ _) (ensure _ _)

theorem fill (p : Pass) (n : Nat) : OffLoan (fill p n) := by
  apply current (fun _ _ _ => rfl)
  intro _ _
  apply (slice _ _).bind
  intro _
  apply (write _ _).bind
  intro _
  exact ite ((write _ _).bind fun _ => (putLength _).bind fun _ => pure _)
    ((write _ _).bind fun _ => pure _)

theorem print (cfg : Config) (f : Formatted) : OffLoan (print cfg f) := by
  apply (measure f.measured).bind
  intro m
  cases m with
  | none => exact pure none
  | some m => exact (makeRoom cfg m).bind fun _ => fill _ _

theorem terminate : OffLoan terminate := by
  apply current (fun _ _ _ => rfl)
  intro _ _
  exact ite ((pure ()).bind fun _ => slice _ _) ((write _ _).bind fun _ => slice _ _)

theorem restart : OffLoan restart := by
  apply current (fun _ _ _ => rfl)
  intro _ _
  apply ite
  · exact (slice _ _).bind fun _ => (write _ _).bind fun _ => (write _ _).bind fun _ => slice _ _
  · exact (putLength _).bind fun _ => (write _ _).bind fun _ => slice _ _

theorem rewind (cfg : Config) : OffLoan (rewind cfg) := by
  apply current (fun _ _ _ => rfl)
  intro _ _
  apply current (fun _ _ _ => rfl)
  intro _ _
  apply readCapacity.bind
  intro _
  exact ite ((grow _ _).bind fun _ => restart) restart

theorem detachBytes (cfg : Config) : OffLoan (detachBytes cfg) := by
  apply current (fun _ _ _ => rfl)
  intro st h
  rcases st with store | ⟨block, n⟩ | n
  · exact (slice _ _).bind fun _ => vacate.bind fun _ => onLedger _
  · exact (write _ _).bind fun _ => (slice _ _).bind fun _ => vacate.bind fun _ => pure _
  · exact h.elim

theorem detach (cfg : Config) : OffLoan (detach cfg) :=
  (detachBytes cfg).bind fun _ => require _ _

/-- No operation on a buffer with a storage of its own concerns the lender. -/
theorem op (cfg : Config) (op : Op) : OffLoan (op.run cfg) := by
  cases op with
  | appendByte c => exact (appendByte cfg c).bind fun _ => pure _
  | append w => exact (append cfg w).bind fun _ => pure _
  | appendText x => exact (append cfg x.toUTF8).bind fun _ => pure _
  | print f => exact (print cfg f).bind fun _ => pure _
  | stream p => exact ((appendTexts cfg p.writes).bind fun _ => pure _).bind fun _ => pure _
  | pop => exact pop.bind fun _ => pure _
  | clear => exact clear.bind fun _ => pure _
  | reserve extra => exact (reserve cfg extra).bind fun _ => pure _
  | spare => exact spare.bind fun _ => pure _
  | writeSpare start w => exact (writeSpare start w).bind fun _ => pure _
  | commit n => exact (commit n).bind fun _ => pure _
  | terminate => exact terminate.bind fun _ => pure _
  | rewind => exact (rewind cfg).bind fun _ => pure _
  | detach => exact (detach cfg).bind fun _ => pure _

end OffLoan

/-- A run from a storage of its own has one course, whatever is on loan. -/
theorem runs_own (cfg : Config) (ops : List Op) (st : Storage) (h : st.Own) (l : Ledger) :
    ∃ outcomes st' l', st'.Own ∧
      ∀ loan, runs cfg ops ⟨⟨st, loan⟩, l⟩ = (outcomes, ⟨⟨st', loan⟩, l'⟩) := by
  induction ops generalizing st l with
  | nil => exact ⟨[], st, l, h, fun _ => rfl⟩
  | cons op ops ih =>
    cases OffLoan.op cfg op st l h with
    | ok a st' l' h' hrun =>
      obtain ⟨outcomes, st'', l'', h'', hruns⟩ := ih st' h' l'
      refine ⟨.ok a :: outcomes, st'', l'', h'', fun loan => ?_⟩
      rw [runs, hrun loan]
      simp only [hruns loan]
    | error e st' l' h' hrun =>
      obtain ⟨outcomes, st'', l'', h'', hruns⟩ := ih st' h' l'
      refine ⟨.error e :: outcomes, st'', l'', h'', fun loan => ?_⟩
      rw [runs, hrun loan]
      simp only [hruns loan]

end Buffer
end GrowBuffer
