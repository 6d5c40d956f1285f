import ByteFlow.Layer.Quota

/-!
# The ledger of a stack of quotas

Quotas that stand on each other are drawn on together, for a byte that crosses one of them crosses
all of them.  The ledger has an entry for each quota that is granted or tightened and for the bytes
that cross, and an account for each quota: what it started with, and what has crossed it since.

## Main definitions

* `Entry`, `Account` — what is written down, and what is kept for each quota.
* `accounts` — the accounts that some entries lead to, the one of the outermost quota first.
* `Clears` — entries that can be made without drawing too much on any quota.
* `InOrder` — what such a ledger guarantees.
* `Clears.inOrder` — the ledger of a stack that starts without quotas is in order.
-/

namespace ByteFlow

/-- What is written down about a stack of quotas. -/
inductive Entry where
  /-- A quota for at most so many bytes is put on top. -/
  | granted (limit : Nat)
  /-- The quota on top is made smaller. -/
  | tightened (limit : Nat)
  /-- The bytes cross all of the quotas. -/
  | crossed (bytes : List UInt8)

/-- What is kept about a quota. -/
structure Account where
  /-- For how many bytes it was when it was put on top, or last tightened. -/
  start : Nat
  /-- How many bytes have crossed since. -/
  crossed : Nat

namespace Account

/-- How many bytes may still cross. -/
def left (account : Account) : Nat := account.start - account.crossed

/-- So many more bytes have crossed. -/
def charge (n : Nat) (account : Account) : Account :=
  { account with crossed := account.crossed + n }

theorem left_charge (n : Nat) (account : Account) : (account.charge n).left = account.left - n :=
  (Nat.sub_sub ..).symm

end Account

namespace Entry

/-- The bytes that have crossed. -/
def bytes : Entry → List UInt8
  | crossed bs => bs
  | _ => []

/-- The limit that was set. -/
def limit : Entry → Option Nat
  | granted limit | tightened limit => some limit
  | crossed _ => none

/-- The accounts after the entry. -/
def post : Entry → List Account → List Account
  | granted limit, accounts =>
    ⟨Quota.tightest limit (accounts.head?.map Account.left), 0⟩ :: accounts
  | tightened limit, accounts => accounts.modifyHead fun account => ⟨min limit account.left, 0⟩
  | crossed bs, accounts => accounts.map (Account.charge bs.length)

/-- How many bytes may cross each of the quotas after the entry. -/
def settle : Entry → List Nat → List Nat
  | granted limit, quotas => Quota.tightest limit quotas.head? :: quotas
  | tightened limit, quotas => quotas.modifyHead (min limit)
  | crossed bs, quotas => quotas.map (· - bs.length)

/-- There is a quota to be tightened, and enough is left for the bytes. -/
def Covered : Entry → List Nat → Prop
  | granted _, _ => True
  | tightened _, quotas => quotas ≠ []
  | crossed bs, quotas => ∀ quota ∈ quotas, bs.length ≤ quota

end Entry

/-- The accounts after all of the entries, of which there were none at first. -/
def accounts (log : List Entry) : List Account :=
  log.foldl (fun accounts entry => entry.post accounts) []

/-- The entries can be made one after the other, and lead from the one stack to the other. -/
inductive Clears : List Nat → List Entry → List Nat → Prop
  | nil (quotas) : Clears quotas [] quotas
  | cons {quotas entry log quotas'} :
    entry.Covered quotas → Clears (entry.settle quotas) log quotas' →
      Clears quotas (entry :: log) quotas'

/-- The ledger accounts for the quotas of a stack, given from the outermost one inwards. -/
structure InOrder (log : List Entry) (quotas : List Nat) : Prop where
  /-- What is left of each quota is what it started with, less the bytes since. -/
  quotas_eq : quotas = (accounts log).map Account.left
  /-- No quota was ever drawn on for more than it had. -/
  crossed_le : ∀ account ∈ accounts log, account.crossed ≤ account.start
  /-- No quota is larger than one under it. -/
  sorted : quotas.Pairwise (· ≤ ·)
  /-- No more bytes cross after a limit was set than it says. -/
  limited : ∀ before entry after limit, log = before ++ entry :: after →
    entry.limit = some limit → (after.flatMap Entry.bytes).length ≤ limit

/-! ## One entry -/

namespace Entry

variable {entry : Entry} {quotas : List Nat}

/-- The accounts say what is left, if they did so before. -/
theorem settle_map_left (entry : Entry) (accounts : List Account) :
    entry.settle (accounts.map Account.left) = (entry.post accounts).map Account.left := by
  cases entry with
  | granted limit => simp [settle, post, Account.left]
  | tightened limit => cases accounts <;> simp [settle, post, Account.left]
  | crossed bs => simp [settle, post, Function.comp_def, Account.left_charge]

theorem crossed_le_post {accounts : List Account}
    (h : ∀ account ∈ accounts, account.crossed ≤ account.start)
    (hentry : entry.Covered (accounts.map Account.left)) :
    ∀ account ∈ entry.post accounts, account.crossed ≤ account.start := by
  cases entry with
  | granted limit => exact List.forall_mem_cons.2 ⟨Nat.zero_le _, h⟩
  | tightened limit =>
    cases accounts with
    | nil => exact h
    | cons account rest =>
      exact List.forall_mem_cons.2 ⟨Nat.zero_le _, (List.forall_mem_cons.1 h).2⟩
  | crossed bs =>
    simp only [post, List.forall_mem_map]
    intro account haccount
    have hle := h account haccount
    have hroom : bs.length ≤ account.left := hentry _ (List.mem_map_of_mem haccount)
    simp only [Account.left, Account.charge] at *
    omega

theorem sorted_settle (h : quotas.Pairwise (· ≤ ·)) (entry : Entry) :
    (entry.settle quotas).Pairwise (· ≤ ·) := by
  cases entry with
  | granted limit =>
    refine List.pairwise_cons.2 ⟨?_, h⟩
    cases quotas with
    | nil => simp
    | cons quota rest =>
      -- the new quota is no larger than the one below it, which is the smallest
      have hmin : min quota limit ≤ quota := Nat.min_le_left ..
      refine List.forall_mem_cons.2 ⟨hmin, fun other hother => ?_⟩
      exact Nat.le_trans hmin ((List.pairwise_cons.1 h).1 other hother)
  | tightened limit =>
    cases quotas with
    | nil => exact h
    | cons quota rest =>
      obtain ⟨hle, hrest⟩ := List.pairwise_cons.1 h
      refine List.pairwise_cons.2 ⟨fun other hother => ?_, hrest⟩
      exact Nat.le_trans (Nat.min_le_right ..) (hle other hother)
  | crossed bs => exact List.pairwise_map.2 (h.imp fun hle => Nat.sub_le_sub_right hle _)

/-- Where nothing has crossed, every quota is as it was. -/
theorem settle_crossed_nil (quotas : List Nat) : (crossed []).settle quotas = quotas :=
  List.map_id' quotas

theorem settle_ne_nil (h : quotas ≠ []) (entry : Entry) : entry.settle quotas ≠ [] := by
  cases quotas with
  | nil => exact absurd rfl h
  | cons quota rest => cases entry <;> exact List.cons_ne_nil _ _

/-- What crosses under a smaller quota crosses under the larger one as well. -/
theorem exists_settle_le (hentry : entry.Covered quotas) {quota : Nat} (hquota : quota ∈ quotas) :
    ∃ quota' ∈ entry.settle quotas, entry.bytes.length + quota' ≤ quota := by
  cases entry with
  | granted limit => exact ⟨quota, List.mem_cons_of_mem _ hquota, Nat.le_of_eq (Nat.zero_add _)⟩
  | tightened limit =>
    cases quotas with
    | nil => cases hquota
    | cons first rest =>
      rcases List.mem_cons.1 hquota with rfl | hrest
      · refine ⟨_, List.mem_cons_self, ?_⟩
        exact Nat.le_trans (Nat.le_of_eq (Nat.zero_add _)) (Nat.min_le_right ..)
      · exact ⟨quota, List.mem_cons_of_mem _ hrest, Nat.le_of_eq (Nat.zero_add _)⟩
  | crossed bs =>
    refine ⟨quota - bs.length, List.mem_map_of_mem hquota, ?_⟩
    have hroom : bs.length ≤ quota := hentry quota hquota
    simp only [bytes]
    omega

/-- The quota for which a limit was set is no larger than the limit. -/
theorem exists_settle_le_limit {limit : Nat} (hentry : entry.Covered quotas)
    (hlimit : entry.limit = some limit) : ∃ quota ∈ entry.settle quotas, quota ≤ limit := by
  cases entry with
  | granted other =>
    cases hlimit
    refine ⟨_, List.mem_cons_self, ?_⟩
    cases quotas.head? with
    | none => exact Nat.le_refl _
    | some quota => exact Nat.min_le_right ..
  | tightened other =>
    cases hlimit
    cases quotas with
    | nil => exact absurd rfl hentry
    | cons quota rest => exact ⟨_, List.mem_cons_self, Nat.min_le_left ..⟩
  | crossed bs => cases hlimit

end Entry

/-! ## All entries -/

namespace Clears

variable {quotas quotas' : List Nat} {log : List Entry}

theorem of_append {before after : List Entry} (h : Clears quotas (before ++ after) quotas') :
    ∃ between, Clears quotas before between ∧ Clears between after quotas' := by
  induction before generalizing quotas with
  | nil => exact ⟨quotas, .nil quotas, h⟩
  | cons entry before ih =>
    cases h with
    | cons hentry hrest =>
      obtain ⟨between, hbefore, hafter⟩ := ih hrest
      exact ⟨between, .cons hentry hbefore, hafter⟩

/-- No more bytes cross than any of the quotas allows. -/
theorem length_le (h : Clears quotas log quotas') {quota : Nat} (hquota : quota ∈ quotas) :
    (log.flatMap Entry.bytes).length ≤ quota := by
  induction h generalizing quota with
  | nil => exact Nat.zero_le _
  | cons hentry _ ih =>
    obtain ⟨quota', hquota', hle⟩ := Entry.exists_settle_le hentry hquota
    have hrest := ih hquota'
    rw [List.flatMap_cons, List.length_append]
    omega

theorem sorted (h : Clears quotas log quotas') (hquotas : quotas.Pairwise (· ≤ ·)) :
    quotas'.Pairwise (· ≤ ·) := by
  induction h with
  | nil => exact hquotas
  | cons _ _ ih => exact ih (Entry.sorted_settle hquotas _)

theorem posted {accounts : List Account} (h : Clears (accounts.map Account.left) log quotas')
    (haccounts : ∀ account ∈ accounts, account.crossed ≤ account.start) :
    let posted := log.foldl (fun accounts entry => entry.post accounts) accounts
    quotas' = posted.map Account.left ∧ ∀ account ∈ posted, account.crossed ≤ account.start := by
  induction log generalizing accounts with
  | nil =>
    cases h
    exact ⟨rfl, haccounts⟩
  | cons entry log ih =>
    cases h with
    | cons hentry hrest =>
      rw [Entry.settle_map_left] at hrest
      exact ih hrest (Entry.crossed_le_post haccounts hentry)

/-- The ledger of a stack that starts without quotas is in order. -/
theorem inOrder (h : Clears [] log quotas) : InOrder log quotas := by
  have hempty : Clears (List.map Account.left []) log quotas := h
  obtain ⟨hquotas, hcrossed⟩ := posted hempty (List.forall_mem_nil _)
  refine ⟨hquotas, hcrossed, h.sorted .nil, ?limited⟩
  case limited =>
    rintro before entry after limit rfl hlimit
    obtain ⟨between, -, hafter⟩ := h.of_append
    cases hafter with
    | cons hentry hrest =>
      obtain ⟨quota, hquota, hle⟩ := Entry.exists_settle_le_limit hentry hlimit
      exact Nat.le_trans (hrest.length_le hquota) hle

end Clears

end ByteFlow
