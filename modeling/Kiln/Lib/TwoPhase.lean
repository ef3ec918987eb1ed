import Kiln.Lib.OrderedMap
import Kiln.Lib.Program

/-!
# Transactions under two-phase locking

A transaction is a program of statements. A statement locks the rows that a condition covers, and those that
come to be covered by it, reads them, and writes rows; it waits while another open transaction has written what
it reads, or has locked what it writes. Locks are held until the transaction ends, and what it wrote is seen by
the others once it has committed.

What an open transaction has done is therefore what it would do alone from what is committed
(`LockingDatabase.Sound.played`), so what each transaction keeps when it runs alone holds of what is
committed, whatever the order of the statements (`LockingDatabase.committed_invariant`).
-/

namespace Kiln.Lib
open List

/-- Puts a row under its key, or removes what is under a key. -/
inductive RowWrite (κ ρ : Type*) where
  | put (row : ρ)
  | delete (key : κ)
  deriving DecidableEq, Repr

/-- What transactions are over: rows with their keys, statements with the rows that they lock and what they do with
those, and the requests with their programs and when they may come. -/
structure LockingDatabase (κ ρ ι : Type*) (answer : ι → Type*) (θ ε : Type*) where
  key : ρ → κ
  locks : ι → ρ → Bool
  does : (i : ι) → List ρ → Option (answer i × List (RowWrite κ ρ))
  program : θ → Program ι answer (Except ε Unit)
  may : List ρ → θ → Bool

/-- A transaction that has begun. -/
structure OpenTransaction (κ ρ ι : Type*) (answer : ι → Type*) (θ ε : Type*) where
  request : θ
  rest : Program ι answer (Except ε Unit)
  locked : ρ → Bool
  writes : List (RowWrite κ ρ)

structure TransactionState (κ ρ ι : Type*) (answer : ι → Type*) (θ ε : Type*) where
  committed : List ρ
  transactions : OrderedMap Nat (OpenTransaction κ ρ ι answer θ ε) := .empty

inductive TransactionEvent (θ : Type*) where
  | begins (transaction : Nat) (request : θ)
  | statement (transaction : Nat)
  | ends (transaction : Nat)
  | fails (transaction : Nat)

namespace LockingDatabase

variable {κ ρ ι θ ε : Type*} {answer : ι → Type*} [DecidableEq κ] (D : LockingDatabase κ ρ ι answer θ ε)

def writeKey : RowWrite κ ρ → κ
  | .put row => D.key row
  | .delete key => key

def write (rows : List ρ) : RowWrite κ ρ → List ρ
  | .put row =>
    if rows.any fun other => D.key other = D.key row then
      rows.map fun other => if D.key other = D.key row then row else other
    else rows ++ [row]
  | .delete key => rows.filter fun row => D.key row ≠ key

def writeAll (rows : List ρ) (writes : List (RowWrite κ ρ)) : List ρ := writes.foldl D.write rows

/-- What a statement answers and writes over what a transaction sees. -/
def exec (i : ι) (rows : List ρ) : Option (answer i × List (RowWrite κ ρ)) :=
  D.does i (rows.filter (D.locks i))

/-- A write changes a row that is locked, or makes one. -/
def touches (locked : ρ → Bool) (rows : List ρ) (write : RowWrite κ ρ) : Bool :=
  (rows.any fun row => D.key row = D.writeKey write && locked row) ||
    match write with
    | .put row => locked row
    | .delete _ => false

/-- The rows under a key that was written. -/
def wrote (writes : List (RowWrite κ ρ)) (row : ρ) : Bool := writes.any fun write => D.writeKey write = D.key row

/-- Writes keep clear of what is locked and of the keys that were written. -/
def clear (rows : List ρ) (locked : ρ → Bool) (keys : List κ) (writes : List (RowWrite κ ρ)) : Bool :=
  writes.all fun write => D.writeKey write ∉ keys && !D.touches locked rows write

def next (s : TransactionState κ ρ ι answer θ ε) : TransactionEvent θ → Option (TransactionState κ ρ ι answer θ ε)
  | .begins transaction request =>
    if (s.transactions.get transaction).isNone && D.may s.committed request then
      some { s with transactions := s.transactions.set transaction ⟨request, D.program request, fun _ => false, []⟩ }
    else none
  | .statement transaction =>
    match s.transactions.get transaction with
    | some ⟨request, .call i rest, locked, writes⟩ =>
      match D.exec i (D.writeAll s.committed writes) with
      | none => some { s with transactions := s.transactions.delete transaction }
      | some (reply, writes') =>
        if s.transactions.entries.all fun other => other.1 = transaction ||
            D.clear s.committed (D.locks i) [] other.2.writes &&
              D.clear s.committed other.2.locked (other.2.writes.map D.writeKey) writes' then
          some { s with
            transactions := s.transactions.set transaction
              ⟨request, rest reply, fun row => locked row || D.locks i row, writes ++ writes'⟩ }
        else none
    | _ => none
  | .ends transaction =>
    match s.transactions.get transaction with
    | some ⟨_, .done (.ok _), _, writes⟩ =>
      some ⟨D.writeAll s.committed writes, s.transactions.delete transaction⟩
    | some ⟨_, .done (.error _), _, _⟩ => some { s with transactions := s.transactions.delete transaction }
    | _ => none
  | .fails transaction => some { s with transactions := s.transactions.delete transaction }

/-- The runs of transactions, with every order of their statements. -/
def system (initially : List ρ → Prop) : System (TransactionState κ ρ ι answer θ ε) (TransactionEvent θ) :=
  .ofFunction (fun s => s.transactions = .empty ∧ initially s.committed) D.next

/-! ## Writes -/

variable {D} {rows rows' : List ρ} {writes writes' : List (RowWrite κ ρ)} {row other : ρ}

theorem mem_put : other ∈ D.write rows (.put row) ↔ other = row ∨ other ∈ rows ∧ D.key other ≠ D.key row := by
  simp only [write]
  split
  · rename_i there
    simp only [any_eq_true, decide_eq_true_eq] at there
    rcases there with ⟨old, member, same⟩
    simp only [mem_map]
    constructor
    · rintro ⟨before, member, is⟩
      split at is
      · exact .inl is.symm
      · rename_i differs
        exact .inr (is ▸ ⟨member, differs⟩)
    · rintro (rfl | ⟨member, differs⟩)
      · exact ⟨old, member, if_pos same⟩
      · exact ⟨other, member, if_neg differs⟩
  · rename_i absent
    simp only [any_eq_true, decide_eq_true_eq, not_exists, not_and] at absent
    rw [mem_append, mem_singleton]
    constructor
    · rintro (member | is)
      · exact .inr ⟨member, absent other member⟩
      · exact .inl is
    · rintro (is | ⟨member, -⟩)
      · exact .inr is
      · exact .inl member

theorem mem_delete {key : κ} : row ∈ D.write rows (.delete key) ↔ row ∈ rows ∧ D.key row ≠ key := by
  simp only [write, mem_filter, decide_eq_true_eq]

theorem writeAll_append : D.writeAll rows (writes ++ writes') = D.writeAll (D.writeAll rows writes) writes' :=
  foldl_append

/-- Keys stay distinct. -/
theorem nodup_write {write : RowWrite κ ρ} (distinct : (rows.map D.key).Nodup) :
    ((D.write rows write).map D.key).Nodup := by
  cases write with
  | put row =>
    simp only [LockingDatabase.write]
    split
    · have same : (rows.map fun other => if D.key other = D.key row then row else other).map D.key = rows.map D.key := by
        rw [map_map]
        refine map_congr_left fun other _ => ?_
        simp only [Function.comp_apply]
        split
        · exact Eq.symm ‹_›
        · rfl
      rw [same]
      exact distinct
    · rename_i absent
      simp only [any_eq_true, decide_eq_true_eq, not_exists, not_and] at absent
      rw [map_append, nodup_append]
      refine ⟨distinct, nodup_singleton _, ?_⟩
      intro key member key' member' same
      rcases mem_map.mp member with ⟨old, there, rfl⟩
      rw [map_singleton, mem_singleton] at member'
      exact absent old there (same.trans member')
  | delete key => exact distinct.sublist (filter_sublist.map _)

theorem nodup_writeAll (distinct : (rows.map D.key).Nodup) : ((D.writeAll rows writes).map D.key).Nodup := by
  induction writes generalizing rows with
  | nil => exact distinct
  | cons write rest ih => exact ih (nodup_write distinct)

variable {covers : ρ → Bool}

theorem mem_puts {change : ρ → ρ} (distinct : (rows.map D.key).Nodup) (keeps : ∀ row, D.key (change row) = D.key row) :
    other ∈ D.writeAll rows ((rows.filter covers).map fun row => .put (change row)) ↔
      ∃ row ∈ rows, other = if covers row then change row else row := by
  suffices all : ∀ (list rows : List ρ), (list.map D.key).Nodup → (rows.map D.key).Nodup → (∀ row ∈ list, row ∈ rows) →
      (other ∈ D.writeAll rows (list.map fun row => .put (change row)) ↔
        (∃ row ∈ list, other = change row) ∨ other ∈ rows ∧ D.key other ∉ list.map D.key) by
    refine (all _ rows (distinct.sublist (filter_sublist.map _)) distinct fun row =>
      mem_of_mem_filter).trans ?_
    constructor
    · rintro (⟨row, member, rfl⟩ | ⟨member, uncovered⟩)
      · rw [mem_filter] at member
        exact ⟨row, member.1, by rw [if_pos member.2]⟩
      · refine ⟨other, member, ?_⟩
        split
        · exact absurd (mem_map.mpr ⟨other, mem_filter.mpr ⟨member, ‹_›⟩, rfl⟩) uncovered
        · rfl
    rintro ⟨row, member, rfl⟩
    split
    · exact .inl ⟨row, mem_filter.mpr ⟨member, ‹_›⟩, rfl⟩
    rename_i uncovered
    refine .inr ⟨member, fun there => ?_⟩
    rcases mem_map.mp there with ⟨same, member', key⟩
    rw [mem_filter] at member'
    obtain rfl := inj_on_of_nodup_map distinct member'.1 member key
    exact uncovered member'.2
  intro list
  induction list with
  | nil =>
    intro rows _ _ _
    simp [writeAll]
  | cons first rest ih =>
    intro rows distinct' distinct within
    rw [map_cons, nodup_cons] at distinct'
    rw [map_cons, writeAll, foldl_cons]
    refine (ih _ distinct'.2 (nodup_write distinct) ?_).trans ?_
    · intro row member
      rw [mem_put]
      refine .inr ⟨within row (mem_cons_of_mem _ member), fun same => distinct'.1 ?_⟩
      rw [keeps] at same
      exact same ▸ mem_map_of_mem member
    rw [mem_put, keeps, map_cons, mem_cons, not_or]
    constructor
    · rintro (⟨row, member, rfl⟩ | ⟨rfl | ⟨member, differs⟩, unlisted⟩)
      · exact .inl ⟨row, mem_cons_of_mem _ member, rfl⟩
      · exact .inl ⟨first, mem_cons_self, rfl⟩
      · exact .inr ⟨member, differs, unlisted⟩
    · rintro (⟨row, member, rfl⟩ | ⟨member, differs, unlisted⟩)
      · rcases mem_cons.mp member with rfl | member
        · exact .inr ⟨.inl rfl, by rw [keeps]; exact distinct'.1⟩
        · exact .inl ⟨row, member, rfl⟩
      · exact .inr ⟨.inr ⟨member, differs⟩, unlisted⟩

theorem mem_deletes (distinct : (rows.map D.key).Nodup) :
    other ∈ D.writeAll rows ((rows.filter covers).map fun row => .delete (D.key row)) ↔
      other ∈ rows ∧ covers other = false := by
  have all : ∀ (keys : List κ) (rows : List ρ), other ∈ D.writeAll rows (keys.map .delete) ↔
      other ∈ rows ∧ D.key other ∉ keys := by
    intro keys
    induction keys with
    | nil => simp [writeAll]
    | cons key rest ih =>
      intro rows
      rw [map_cons, writeAll, foldl_cons]
      refine (ih _).trans ?_
      rw [mem_delete, mem_cons, not_or, and_assoc]
  have listed : ((rows.filter covers).map fun row => RowWrite.delete (ρ := ρ) (D.key row)) =
      ((rows.filter covers).map D.key).map .delete := by
    rw [map_map]
    rfl
  rw [listed]
  refine (all _ _).trans (and_congr_right fun member => ?_)
  constructor
  · exact fun unlisted => Bool.eq_false_iff.mpr fun is =>
      unlisted (mem_map_of_mem (mem_filter.mpr ⟨member, is⟩))
  intro uncovered there
  rcases mem_map.mp there with ⟨same, member', key⟩
  rw [mem_filter] at member'
  obtain rfl := inj_on_of_nodup_map distinct member'.1 member key
  rw [member'.2] at uncovered
  exact absurd uncovered.symm Bool.false_ne_true

theorem filter_writeAll (writes : List (RowWrite κ ρ)) (same : rows.filter covers = rows'.filter covers)
    (covered : ∀ row, D.wrote writes row = true → covers row = true) :
    (D.writeAll rows writes).filter covers = (D.writeAll rows' writes).filter covers := by
  induction writes generalizing rows rows' with
  | nil => exact same
  | cons write rest ih =>
    have keys : ∀ row, D.key row = D.writeKey write → covers row = true := by
      intro row is
      refine covered row ?_
      rw [wrote, any_cons, decide_eq_true is.symm, Bool.true_or]
    refine ih ?_ fun row is => covered row (by rw [wrote, any_cons]; rw [wrote] at is; rw [is, Bool.or_true])
    cases write with
    | put row =>
      have anys : ∀ list : List ρ, (list.any fun other => D.key other = D.key row) =
          (list.filter covers).any fun other => D.key other = D.key row := by
        intro list
        rw [any_filter]
        refine any_congr rfl fun other => ?_
        by_cases is : D.key other = D.key row
        · rw [keys other is, Bool.true_and]
        · rw [decide_eq_false is, Bool.and_false]
      have maps : ∀ list : List ρ,
          (list.map fun other => if D.key other = D.key row then row else other).filter covers =
            (list.filter covers).map fun other => if D.key other = D.key row then row else other := by
        intro list
        rw [filter_map]
        refine congrArg _ (filter_congr fun other _ => ?_)
        simp only [Function.comp_apply]
        split
        · rename_i is
          rw [keys row rfl, keys other is]
        · rfl
      simp only [LockingDatabase.write, anys rows, anys rows', same]
      split
      · rw [maps, maps, same]
      · rw [filter_append, filter_append, same]
    | delete key =>
      simp only [LockingDatabase.write, filter_filter]
      have swaps : ∀ list : List ρ, (list.filter fun row => covers row && decide (D.key row ≠ key)) =
          (list.filter covers).filter fun row => decide (D.key row ≠ key) := by
        intro list
        rw [filter_filter]
        exact filter_congr fun _ _ => Bool.and_comm _ _
      rw [swaps, swaps, same]

theorem filter_of_clear {keys : List κ} (clear : D.clear rows covers keys writes = true) :
    (D.writeAll rows writes).filter covers = rows.filter covers := by
  have apart : ∀ write ∈ writes, D.touches covers rows write = false := by
    intro write member
    have is := all_eq_true.mp clear write member
    rw [Bool.and_eq_true, Bool.not_eq_true'] at is
    exact is.2
  clear clear
  induction writes generalizing rows with
  | nil => rfl
  | cons write rest ih =>
    have here := apart write mem_cons_self
    simp only [touches, Bool.or_eq_false_iff, any_eq_false, Bool.and_eq_true, decide_eq_true_eq, not_and] at here
    have untouched : (D.write rows write).filter covers = rows.filter covers := by
      cases write with
      | put row =>
        have uncovered : ¬ covers row = true := Bool.eq_false_iff.mp here.2
        simp only [LockingDatabase.write]
        split
        · have alike : ∀ list : List ρ, (∀ other ∈ list, D.key other = D.key row → ¬ covers other = true) →
              (list.map fun other => if D.key other = D.key row then row else other).filter covers =
                list.filter covers := by
            intro list free
            induction list with
            | nil => rfl
            | cons other list ih' =>
              have tail := ih' fun another member => free another (mem_cons_of_mem _ member)
              rw [map_cons]
              split
              · rename_i is
                rw [filter_cons_of_neg uncovered, filter_cons_of_neg (free other mem_cons_self is), tail]
              · rw [filter_cons, filter_cons, tail]
          exact alike rows here.1
        · rw [filter_append, filter_singleton, Bool.eq_false_iff.mpr uncovered]
          exact append_nil _
      | delete key =>
        simp only [LockingDatabase.write, filter_filter]
        refine filter_congr fun row member => ?_
        by_cases is : D.key row = key
        · rw [Bool.eq_false_iff.mpr (here.1 row member is), Bool.false_and]
        · rw [decide_eq_true is, Bool.and_true]
    have later : ∀ other ∈ rest, D.touches covers (D.write rows write) other = false := by
      intro other member
      have is := apart other (mem_cons_of_mem _ member)
      simp only [touches, Bool.or_eq_false_iff, any_eq_false, Bool.and_eq_true, decide_eq_true_eq, not_and] at is ⊢
      refine ⟨fun row there same covered => ?_, is.2⟩
      have before : row ∈ rows.filter covers := untouched ▸ mem_filter.mpr ⟨there, covered⟩
      exact is.1 row (mem_of_mem_filter before) same covered
    exact (ih later).trans untouched

/-! ## What a transaction has done -/

/-- From these rows, the program comes by statements of its own to `rest`, with what it has locked and written. -/
inductive Played (D : LockingDatabase κ ρ ι answer θ ε) (rows : List ρ) (program : Program ι answer (Except ε Unit)) :
    Program ι answer (Except ε Unit) → (ρ → Bool) → List (RowWrite κ ρ) → Prop
  | begins : Played D rows program program (fun _ => false) []
  | statement {i : ι} {rest : answer i → Program ι answer (Except ε Unit)} {locked : ρ → Bool}
      {writes writes' : List (RowWrite κ ρ)} {reply : answer i} :
      Played D rows program (.call i rest) locked writes →
      D.exec i (D.writeAll rows writes) = some (reply, writes') →
      Played D rows program (rest reply) (fun row => locked row || D.locks i row) (writes ++ writes')

variable {program rest : Program ι answer (Except ε Unit)} {locked : ρ → Bool}

/-- What a transaction has done, it would do over other rows too, as long as what it has locked, and the keys that it
has written, are the same. -/
theorem Played.over (played : Played D rows program rest locked writes)
    (same : rows.filter (fun row => locked row || D.wrote writes row) =
      rows'.filter fun row => locked row || D.wrote writes row) : Played D rows' program rest locked writes := by
  have narrow : ∀ covers covers' : ρ → Bool, (∀ row, covers row = true → covers' row = true) →
      rows.filter covers' = rows'.filter covers' → rows.filter covers = rows'.filter covers := by
    intro covers covers' within same
    have both : ∀ list : List ρ, list.filter covers = (list.filter covers').filter covers := by
      intro list
      rw [filter_filter]
      refine filter_congr fun row _ => ?_
      cases is : covers row with
      | false => rfl
      | true => rw [within row is, Bool.and_self]
    rw [both rows, both rows', same]
  induction played with
  | begins => exact .begins
  | statement before made ih =>
    rename_i i next locked writes writes' reply
    have part : ∀ row, (locked row || D.wrote writes row) = true →
        (locked row || D.locks i row || D.wrote (writes ++ writes') row) = true := by
      intro row is
      rw [wrote, any_append]
      rw [wrote, Bool.or_eq_true] at is
      rcases is with is | is
      · rw [is, Bool.true_or, Bool.true_or]
      · rw [is, Bool.true_or, Bool.or_true]
    refine .statement (ih (narrow _ _ part same)) ?_
    -- what the statement reads is the same
    have reads : (D.writeAll rows' writes).filter (D.locks i) = (D.writeAll rows writes).filter (D.locks i) := by
      have all := filter_writeAll (D := D) writes same (fun row is => by
        rw [wrote, any_append]
        rw [wrote] at is
        rw [is, Bool.true_or, Bool.or_true])
      have both : ∀ list : List ρ, list.filter (D.locks i) =
          (list.filter fun row => locked row || D.locks i row || D.wrote (writes ++ writes') row).filter (D.locks i) := by
        intro list
        rw [filter_filter]
        refine filter_congr fun row _ => ?_
        cases is : D.locks i row with
        | false => rfl
        | true => rw [Bool.or_true, Bool.true_or, Bool.and_self]
      rw [both (D.writeAll rows' writes), ← all, ← both]
    rw [exec, reads]
    exact made

/-- A statement of a transaction that is alone. -/
def calls (D : LockingDatabase κ ρ ι answer θ ε) (rows : List ρ) (i : ι) (reply : answer i) (rows' : List ρ) : Prop :=
  ∃ writes, D.exec i rows = some (reply, writes) ∧ rows' = D.writeAll rows writes

/-- A transaction alone, in a world of its own. -/
def alone (D : LockingDatabase κ ρ ι answer θ ε) : Program.World (List ρ) ι answer := .ofView id D.calls

/-- What a transaction has done is a run of it alone. -/
theorem Played.reachable (played : Played D rows program rest locked writes) :
    (Program.runs D.alone program rows).Reachable (rest, D.writeAll rows writes) := by
  induction played with
  | begins => exact System.Reachable.init rfl
  | statement before made ih =>
    rw [writeAll_append]
    exact ih.step (e := ()) (.call ⟨_, made, rfl⟩)

/-! ## Every order of the statements -/

theorem mem_writeAll (unwritten : D.wrote writes row = false) : row ∈ D.writeAll rows writes ↔ row ∈ rows := by
  induction writes generalizing rows with
  | nil => exact Iff.rfl
  | cons write rest ih =>
    simp only [wrote, any_cons, Bool.or_eq_false_iff, decide_eq_false_iff_not] at unwritten
    refine (ih unwritten.2).trans ?_
    cases write with
    | put other =>
      rw [mem_put]
      constructor
      · rintro (rfl | ⟨member, -⟩)
        · exact absurd rfl unwritten.1
        · exact member
      · exact fun member => .inr ⟨member, fun same => unwritten.1 same.symm⟩
    | delete key =>
      rw [mem_delete]
      exact ⟨fun is => is.1, fun member => ⟨member, fun same => unwritten.1 same.symm⟩⟩

theorem clear_iff {keys : List κ} : D.clear rows locked keys writes = true ↔
    ∀ write ∈ writes, D.writeKey write ∉ keys ∧ D.touches locked rows write = false := by
  simp only [clear, all_eq_true, Bool.and_eq_true, decide_eq_true_eq, Bool.not_eq_true']

theorem wrote_iff : D.wrote writes row = true ↔ ∃ write ∈ writes, D.writeKey write = D.key row := by
  simp only [wrote, any_eq_true, decide_eq_true_eq]

/-- What keeps clear of locks and keys keeps clear of the rows under those keys too. -/
theorem clear_covers (clear : D.clear rows locked (writes.map D.writeKey) writes' = true) :
    D.clear rows (fun row => locked row || D.wrote writes row) [] writes' = true := by
  rw [clear_iff] at clear ⊢
  intro write member
  rcases clear write member with ⟨other, untouched⟩
  refine ⟨not_mem_nil, ?_⟩
  have unwritten : ∀ row, D.key row = D.writeKey write → D.wrote writes row = false := by
    intro row same
    refine Bool.eq_false_iff.mpr fun is => ?_
    rcases wrote_iff.mp is with ⟨before, there, is⟩
    exact other (mem_map.mpr ⟨before, there, is.trans same⟩)
  simp only [touches, Bool.or_eq_false_iff, any_eq_false, Bool.and_eq_true, decide_eq_true_eq, not_and] at untouched ⊢
  constructor
  · intro row there same
    rw [unwritten row same, Bool.or_false]
    exact untouched.1 row there same
  cases write with
  | put row =>
    dsimp only
    rw [unwritten row rfl, Bool.or_false]
    exact untouched.2
  | delete key => rfl

variable (D) in
structure Sound (s : TransactionState κ ρ ι answer θ ε) : Prop where
  played : ∀ transaction opened, s.transactions.get transaction = some opened →
    D.Played s.committed (D.program opened.request) opened.rest opened.locked opened.writes
  apart : ∀ transaction other opened opened', s.transactions.get transaction = some opened →
    s.transactions.get other = some opened' → transaction ≠ other →
      D.clear s.committed opened.locked (opened.writes.map D.writeKey) opened'.writes = true

variable {s s' : TransactionState κ ρ ι answer θ ε} {transaction : Nat}

theorem Sound.without (sound : D.Sound s) :
    D.Sound { s with transactions := s.transactions.delete transaction } := by
  have before : ∀ other opened, (s.transactions.delete transaction).get other = some opened →
      s.transactions.get other = some opened := by
    intro other opened there
    rw [OrderedMap.get_delete] at there
    split at there
    · cases there
    · exact there
  constructor
  · exact fun other opened there => sound.played other opened (before other opened there)
  · exact fun first second opened opened' there there' =>
      sound.apart first second opened opened' (before first opened there) (before second opened' there')

theorem Sound.begins {request : θ} (sound : D.Sound s) : D.Sound { s with
    transactions := s.transactions.set transaction ⟨request, D.program request, fun _ => false, []⟩ } := by
  constructor
  · intro other opened there
    simp only [OrderedMap.get_set] at there
    split at there
    · cases there
      exact .begins
    · exact sound.played other opened there
  intro first second opened opened' there there' differs
  simp only [OrderedMap.get_set] at there there'
  split at there'
  · cases there'
    rfl
  split at there
  · cases there
    rw [clear_iff]
    intro write _
    refine ⟨not_mem_nil, ?_⟩
    cases write <;> simp [touches]
  · exact sound.apart first second opened opened' there there' differs

theorem Sound.statement {request : θ} {i : ι} {next : answer i → Program ι answer (Except ε Unit)} {reply : answer i}
    (sound : D.Sound s) (there : s.transactions.get transaction = some ⟨request, .call i next, locked, writes⟩)
    (made : D.exec i (D.writeAll s.committed writes) = some (reply, writes'))
    (apart : ∀ other opened, s.transactions.get other = some opened → other ≠ transaction →
      D.clear s.committed (D.locks i) [] opened.writes = true ∧
        D.clear s.committed opened.locked (opened.writes.map D.writeKey) writes' = true) :
    D.Sound { s with
      transactions := s.transactions.set transaction
        ⟨request, next reply, fun row => locked row || D.locks i row, writes ++ writes'⟩ } := by
  constructor
  · intro other opened is
    simp only [OrderedMap.get_set] at is
    split at is
    · cases is
      exact (sound.played _ _ there).statement made
    · exact sound.played other opened is
  intro first second opened opened' is is' differs
  simp only [OrderedMap.get_set] at is is'
  split at is
  · rename_i same
    cases is
    rw [if_neg (same ▸ differs)] at is'
    have before := clear_iff.mp (sound.apart transaction second _ opened' there is' (same ▸ differs))
    rcases apart second opened' is' (same ▸ differs.symm) with ⟨reads, written⟩
    rw [clear_iff] at reads written ⊢
    intro write member
    constructor
    · rw [map_append, mem_append]
      rintro (mine | mine)
      · exact (before write member).1 mine
      · rcases mem_map.mp mine with ⟨write', member', key⟩
        exact (written write' member').1 (mem_map.mpr ⟨write, member, key.symm⟩)
    have first := (before write member).2
    have second := (reads write member).2
    simp only [touches, Bool.or_eq_false_iff, any_eq_false, Bool.and_eq_true, decide_eq_true_eq,
      not_and] at first second ⊢
    constructor
    · intro row there key covered
      rw [Bool.or_eq_true] at covered
      rcases covered with covered | covered
      · exact first.1 row there key covered
      · exact second.1 row there key covered
    · cases write with
      | put row =>
        dsimp only at first second ⊢
        rw [first.2, second.2]
        rfl
      | delete key => rfl
  · split at is'
    · rename_i other same
      cases is'
      have before := clear_iff.mp (sound.apart first transaction opened _ is there (same ▸ differs))
      have written := clear_iff.mp (apart first opened is (same ▸ differs)).2
      rw [clear_iff]
      intro write member
      rcases mem_append.mp member with member | member
      · exact before write member
      · exact written write member
    · exact sound.apart first second opened opened' is is' differs

theorem Sound.commits {opened : OpenTransaction κ ρ ι answer θ ε} (sound : D.Sound s)
    (there : s.transactions.get transaction = some opened) :
    D.Sound ⟨D.writeAll s.committed opened.writes, s.transactions.delete transaction⟩ := by
  have before : ∀ other opened', (s.transactions.delete transaction).get other = some opened' →
      other ≠ transaction ∧ s.transactions.get other = some opened' := by
    intro other opened' is
    rw [OrderedMap.get_delete] at is
    split at is
    · cases is
    · exact ⟨Ne.symm ‹_›, is⟩
  constructor
  · intro other opened' is
    rcases before other opened' is with ⟨differs, is⟩
    refine (sound.played other opened' is).over ?_
    exact (filter_of_clear (clear_covers (sound.apart other transaction opened' opened is there differs))).symm
  intro first second opened' opened'' is is' differs
  rcases before first opened' is with ⟨-, is⟩
  rcases before second opened'' is' with ⟨other, is'⟩
  have held := clear_iff.mp (sound.apart first second opened' opened'' is is' differs)
  rw [clear_iff]
  intro write member
  refine ⟨(held write member).1, ?_⟩
  have untouched := (held write member).2
  simp only [touches, Bool.or_eq_false_iff, any_eq_false, Bool.and_eq_true, decide_eq_true_eq, not_and] at untouched ⊢
  refine ⟨fun row after key => untouched.1 row ?_ key, untouched.2⟩
  -- what it writes is under other keys
  refine (mem_writeAll ?_).mp after
  refine Bool.eq_false_iff.mpr fun is => ?_
  rcases wrote_iff.mp is with ⟨write', member', key'⟩
  have apart := clear_iff.mp (sound.apart second transaction opened'' opened is' there other) write' member'
  exact apart.1 (mem_map.mpr ⟨write, member, key.symm.trans key'.symm⟩)

theorem Sound.step {event : TransactionEvent θ} (sound : D.Sound s) (step : D.next s event = some s') :
    D.Sound s' ∧ (s'.committed = s.committed ∨ ∃ transaction opened,
      event = .ends transaction ∧ s.transactions.get transaction = some opened ∧
        (Program.runs D.alone (D.program opened.request) s.committed).Reachable (.done (.ok ()), s'.committed)) := by
  cases event with
  | begins transaction request =>
    simp only [next, Option.ite_none_right_eq_some] at step
    cases step.2
    exact ⟨sound.begins, .inl rfl⟩
  | statement transaction =>
    simp only [next] at step
    split at step
    · rename_i request i next locked writes there
      split at step
      · cases step
        exact ⟨sound.without, .inl rfl⟩
      rename_i reply writes' made
      simp only [Option.ite_none_right_eq_some, all_eq_true, Bool.or_eq_true, Bool.and_eq_true,
        decide_eq_true_eq] at step
      cases step.2
      refine ⟨sound.statement there made fun other opened is differs => ?_, .inl rfl⟩
      have member := (OrderedMap.lookup_eq_some s.transactions.nodup).mp is
      exact (step.1 (other, opened) member).resolve_left differs
    · cases step
  | ends transaction =>
    simp only [next] at step
    split at step
    · rename_i request value locked writes there
      cases step
      exact ⟨sound.commits there, .inr ⟨transaction, _, rfl, there, (sound.played _ _ there).reachable⟩⟩
    · cases step
      exact ⟨sound.without, .inl rfl⟩
    · cases step
  | fails transaction =>
    cases step
    exact ⟨sound.without, .inl rfl⟩

theorem committed_invariant {initially I : List ρ → Prop}
    {guard : TransactionState κ ρ ι answer θ ε → TransactionEvent θ → Prop} (start : ∀ rows, initially rows → I rows)
    (keeps : ∀ s transaction opened rows, guard s (.ends transaction) → s.transactions.get transaction = some opened →
      I s.committed →
        (Program.runs D.alone (D.program opened.request) s.committed).Reachable (.done (.ok ()), rows) → I rows)
    (reached : ((D.system initially).restrict guard).Reachable s) : I s.committed := by
  suffices all : D.Sound s ∧ I s.committed from all.2
  refine System.Reachable.invariant (I := fun s => D.Sound s ∧ I s.committed) ?_ ?_ reached
  · rintro s ⟨none_, initially⟩
    refine ⟨⟨?_, ?_⟩, start _ initially⟩
    · intro transaction opened there
      rw [none_] at there
      cases there
    · intro transaction other opened opened' there
      rw [none_] at there
      cases there
  · rintro s event s' ⟨sound, holds⟩ ⟨guarded, step⟩
    rcases sound.step step with ⟨sound', same | ⟨transaction, opened, rfl, there, run⟩⟩
    · exact ⟨sound', same ▸ holds⟩
    · exact ⟨sound', keeps s transaction opened _ guarded there holds run⟩

end LockingDatabase

end Kiln.Lib
