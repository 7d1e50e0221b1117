import GrowBuffer.Proofs.Loan

/-! # What a stopped operation leaves

An operation that is stopped leaves one of two states. A size that cannot be computed and an
excessive commit are found before anything is changed; when memory is refused the storage
was given up already, and the buffer is as good as new.
-/

namespace GrowBuffer.Buffer
open Memory

/-- Every run from `t` takes the course of the run from `s`, with the loan of `t` beside it. -/
def GoesOnAs (cfg : Config) (t s : State) : Prop :=
  ∀ ops, runs cfg ops t =
    ((runs cfg ops s).1,
      ⟨⟨(runs cfg ops s).2.buffer.storage, t.buffer.loan⟩, (runs cfg ops s).2.ledger⟩)

theorem goesOnAs_new (cfg : Config) (loan : ByteArray) (l : Ledger) :
    GoesOnAs cfg ⟨⟨.empty, loan⟩, l⟩ ⟨{}, l⟩ := by
  intro ops
  obtain ⟨outcomes, st, l', -, hruns⟩ := runs_own cfg ops .empty trivial l
  rw [hruns loan, hruns .empty]

/-- An operation that makes no more than one step and is stopped has either changed nothing,
as its size could not be computed or its commit was excessive, or it was refused memory and
leaves a new buffer, with what is on loan as it was. -/
theorem reachable_stopped {b : Buffer} (h : Reachable b) (cfg : Config) (l : Ledger) {op : Op}
    (hop : op.isStream = false) {e : Stop} {t : State} (hrun : op.run cfg ⟨b, l⟩ = .error e t) :
    (t = ⟨b, l⟩ ∧ ((∃ why, e = .refused why ∧ why.isOverflow = true) ∨
      ∃ n, op = .commit n ∧ e = .faulted (.overcommitted n b.room))) ∨
    (t.buffer.storage = ({} : Buffer).storage ∧ t.buffer.loan = b.loan ∧
      GoesOnAs cfg t ⟨{}, t.ledger⟩ ∧ ∃ why, e = .refused why ∧ why.isOverflow = false) := by
  by_cases hcommit : ∀ n, op = .commit n → n ≤ b.room
  · have hends : Ends ⟨b, l⟩ _ (op.run cfg ⟨b, l⟩) := Op.run_ends h.sound hop hcommit
    rw [hrun] at hends
    cases hends with
    | uncountable hwhy => exact .inl ⟨rfl, .inl ⟨_, rfl, hwhy⟩⟩
    | unsupplied hwhy l' => exact .inr ⟨rfl, rfl, goesOnAs_new cfg b.loan l', _, rfl, hwhy⟩
  · push Not at hcommit
    obtain ⟨n, rfl, hn⟩ := hcommit
    rw [Op.run_commit_excess h.sound hn] at hrun
    cases hrun
    exact .inl ⟨rfl, .inr ⟨n, rfl, rfl⟩⟩

/-- Lent memory is left under a ceiling of four bytes, and nothing is found in its place. -/
theorem reachable_stopped_ceiling :
    (Op.append ⟨#[97, 98]⟩).run ⟨8192, some 4⟩ ⟨⟨.lent 0, ⟨#[0, 7]⟩⟩, {}⟩ =
        .error (.refused (.aboveCeiling 8193 4)) ⟨⟨.empty, ⟨#[0, 7]⟩⟩, {}⟩ ∧
      GoesOnAs ⟨8192, some 4⟩ ⟨⟨.empty, ⟨#[0, 7]⟩⟩, {}⟩ ⟨{}, {}⟩ := by
  have hrun : (Op.append ⟨#[97, 98]⟩).run ⟨8192, some 4⟩ ⟨⟨.lent 0, ⟨#[0, 7]⟩⟩, {}⟩ =
      .error (.refused (.aboveCeiling 8193 4)) ⟨⟨.empty, ⟨#[0, 7]⟩⟩, {}⟩ := rfl
  refine ⟨hrun, ?_⟩
  have hfresh : Fresh ⟨.lent 0, ⟨#[0, 7]⟩⟩ := .lent ⟨#[7, 7]⟩ (by decide) rfl
  rcases reachable_stopped (.fresh hfresh) ⟨8192, some 4⟩ {} rfl hrun with
    ⟨-, ⟨_, hwhy, hsize⟩ | ⟨_, hop, -⟩⟩ | ⟨-, -, hgoes, -⟩
  · cases hwhy
    cases hsize
  · cases hop
  · exact hgoes

end GrowBuffer.Buffer
