import LcsSystem.Telegram.Outbox

/-!
# What the notification outbox promises

`Sound` counts: the claims of a row in the history never exceed its attempts, every claim token is new, every sender
works for one claim of the history and has not sent before it writes. `Locked` is what the row locks are for: the rows
an open claim has loaded are still those of the table when it commits.
-/

namespace LcsSystem.Telegram
open Relational Transition

variable {log : List OutboxEvent} {rowId token : ℕ}

/-! ## Histories -/

namespace Outbox

@[simp] theorem claimsOf_append (log more : List OutboxEvent) : claimsOf (log ++ more) = claimsOf log ++ claimsOf more :=
  List.filterMap_append

@[simp] theorem sendsOf_append (log more : List OutboxEvent) : sendsOf (log ++ more) = sendsOf log ++ sendsOf more :=
  List.filterMap_append

@[simp] theorem claimsOf_claimed : claimsOf [.claimed rowId token] = [(rowId, token)] := rfl
@[simp] theorem claimsOf_sent : claimsOf [.sent rowId token] = [] := rfl
@[simp] theorem sendsOf_claimed : sendsOf [.claimed rowId token] = [] := rfl
@[simp] theorem sendsOf_sent : sendsOf [.sent rowId token] = [(rowId, token)] := rfl
@[simp] theorem claimsOf_nil : claimsOf [] = [] := rfl
@[simp] theorem sendsOf_nil : sendsOf [] = [] := rfl

theorem latest_claimed : Latest (log ++ [.claimed rowId token]) rowId token := by simp [Latest]

theorem latest_claimed_of_ne {other t : ℕ} (hne : other ≠ rowId) :
    Latest (log ++ [.claimed rowId token]) other t ↔ Latest log other t := by
  simp [Latest, hne.symm]

theorem latest_sent {other t : ℕ} : Latest (log ++ [.sent rowId token]) other t ↔ Latest log other t := by
  simp [Latest]

end Outbox

/-! ## Rows -/

theorem modify_of_fixed {α : Type} {t : Table α} {id : ℕ} {f : α → α} (h : ∀ a, t.get? id = some a → f a = a) :
    t.modify id f = t := by
  cases ha : t.get? id with
  | some a => exact Table.modify_eq_self ha (h a ha)
  | none => exact Table.ext (Table.map_modifyRow_of_absent f (Table.find_eq_none.1 ha)) rfl

/-- What no statement but the hand-out changes in a row, and what every statement makes of its status. -/
structure Notification.Carried (row row' : Notification) : Prop where
  attempts : row'.attempts = row.attempts
  maxAttempts : row'.maxAttempts = row.maxAttempts
  claimToken : ∀ token, row'.claimToken = some token → row.claimToken = some token
  final : row.status.isTerminal = true → row'.status = row.status
  redacted : (row.status.isTerminal = true → row.sensitivePayload = none) → row'.status.isTerminal = true →
    row'.sensitivePayload = none

namespace Notification
variable {row copy : Notification} {now : ℕ}

theorem Carried.refl (row : Notification) : Carried row row := ⟨rfl, rfl, fun _ h => h, fun _ => rfl, fun h => h⟩

theorem carried_purge (row : Notification) : Carried row row.purge := ⟨rfl, rfl, fun _ h => h, fun _ => rfl, fun _ _ => rfl⟩

theorem carried_giveUp (h : row.status.isTerminal = false) : Carried row (row.giveUp now) := by
  unfold giveUp
  split <;> exact ⟨rfl, rfl, fun _ h => h, fun hterminal => absurd (hterminal.symm.trans h) nofun, fun _ _ => rfl⟩

theorem carried_withResult (hcopy : copy.status.isTerminal = true → copy.sensitivePayload = none) :
    Carried row (if row.heldBy token = true then row.withResult copy else row) := by
  split
  · next hheld =>
    simp only [heldBy, Bool.and_eq_true, beq_iff_eq] at hheld
    refine ⟨rfl, rfl, ?_, fun hterminal => ?_, fun _ => hcopy⟩
    · intro k hk
      cases hk
    · rw [hheld.1] at hterminal
      cases hterminal
  · exact Carried.refl row

theorem redacted_ineligible (row : Notification) : row.ineligible.sensitivePayload = none := rfl

theorem redacted_settled (result : DeliveryResult) (h : (row.settled now result).status.isTerminal = true) :
    (row.settled now result).sensitivePayload = none := by
  cases result with
  | sent => rfl
  | fault => rfl
  | refused code retryable retryAfter =>
    simp only [settled] at h ⊢
    split
    · next hretry =>
      rw [if_pos hretry] at h
      cases h
    · rfl

theorem not_terminal_of_due (h : row.due now = true) : row.status.isTerminal = false := by
  unfold due at h
  cases hs : row.status <;> simp_all [OutboxStatus.isTerminal]

end Notification

/-! ## The invariant -/

def SenderStage.unsent : SenderStage → Bool
  | .write _ => false
  | _ => true

namespace Outbox

structure Sound (s : Outbox) : Prop where
  attempts : ∀ id row, s.rows.get? id = some row → row.attempts ≤ row.maxAttempts
  redacted : ∀ id row, s.rows.get? id = some row → row.status.isTerminal = true → row.sensitivePayload = none
  counted : ∀ id row, s.rows.get? id = some row → ((claimsOf s.log).filter fun c => c.1 = id).length ≤ row.attempts
  known : ∀ c ∈ claimsOf s.log, c.1 < s.rows.nextId
  tokens : ∀ c ∈ claimsOf s.log, c.2 < s.nextToken
  claimedOnce : ((claimsOf s.log).map Prod.snd).Nodup
  sentClaimed : ∀ c ∈ sendsOf s.log, c ∈ claimsOf s.log
  sentOnce : ((sendsOf s.log).map Prod.snd).Nodup
  senders : ∀ k t, s.senders.get? k = some t → (t.rowId, t.token) ∈ claimsOf s.log
  apart : ∀ j k t u, s.senders.get? j = some t → s.senders.get? k = some u → t.token = u.token → j = k
  unsent : ∀ k t, s.senders.get? k = some t → t.stage.unsent = true → ∀ c ∈ sendsOf s.log, c.2 ≠ t.token
  written : ∀ k t copy, s.senders.get? k = some t → t.stage = .write copy → copy.status.isTerminal = true →
    copy.sensitivePayload = none
  latest : ∀ id row token, s.rows.get? id = some row → row.claimToken = some token → Latest s.log id token

/-- The loaded rows of open claims are those of the table, up to the purge, and no row is locked twice. -/
structure Locked (s : Outbox) : Prop where
  loaded : ∀ k now purged rows, s.claims.get? k = some (.commit now purged rows) → (rows.map Prod.fst).Nodup ∧
    ∀ r ∈ rows, ∃ row, s.rows.get? r.1 = some row ∧ r.2 = (if r.1 ∈ purged then row.purge else row) ∧
      row.status.isTerminal = false
  exclusive : ∀ j k t u, s.claims.get? j = some t → s.claims.get? k = some u → j ≠ k → ∀ id ∈ t.locks, id ∉ u.locks

theorem sound_empty : Sound empty := by
  constructor <;> simp [empty, Table.empty, Table.get?, Table.find]

theorem locked_empty : Locked empty := by
  constructor <;> simp [empty, Table.empty, Table.get?, Table.find]

theorem Sound.delivers {s : Outbox} (h : s.Sound) : s.Delivers where
  attempts := h.attempts
  sentOnce := h.sentOnce
  redacted := h.redacted
  sends id row hrow := by
    -- the sends of the row are among its claims, each once
    have hnodup : ((sendsOf s.log).filter fun c => c.1 = id).Nodup := (List.Nodup.of_map _ h.sentOnce).filter _
    have hsubset : ((sendsOf s.log).filter fun c => c.1 = id) ⊆ (claimsOf s.log).filter fun c => c.1 = id := by
      intro c hc
      simp only [List.mem_filter, decide_eq_true_eq] at hc ⊢
      exact ⟨h.sentClaimed c hc.1, hc.2⟩
    calc ((sendsOf s.log).filter fun c => c.1 = id).length
        ≤ ((claimsOf s.log).filter fun c => c.1 = id).length := (hnodup.subperm hsubset).length_le
      _ ≤ row.attempts := h.counted id row hrow
      _ ≤ row.maxAttempts := h.attempts id row hrow

/-! ## Final rows -/

section
variable {s s' t : Outbox}

theorem Final.refl (s : Outbox) : Final s s :=
  ⟨[], (List.append_nil _).symm, fun _ row hrow _ => ⟨⟨row, hrow, rfl⟩, by simp, by simp⟩⟩

theorem Final.trans (h : Final s s') (h' : Final s' t) : Final s t := by
  obtain ⟨more, hlog, hrows⟩ := h
  obtain ⟨more', hlog', hrows'⟩ := h'
  refine ⟨more ++ more', by rw [hlog', hlog, List.append_assoc], fun id row hrow hterminal => ?_⟩
  obtain ⟨⟨row', hrow', hstatus⟩, hclaims, hsends⟩ := hrows id row hrow hterminal
  obtain ⟨⟨row'', hrow'', hstatus'⟩, hclaims', hsends'⟩ := hrows' id row' hrow' (hstatus ▸ hterminal)
  refine ⟨⟨row'', hrow'', hstatus'.trans hstatus⟩, fun tok hmem => ?_, fun tok hmem => ?_⟩
  · rw [claimsOf_append, List.mem_append] at hmem
    exact hmem.elim (hclaims tok) (hclaims' tok)
  · rw [sendsOf_append, List.mem_append] at hmem
    rcases hmem with hmem | hmem
    · exact hsends tok hmem
    · have := hsends' tok hmem
      rw [hlog, claimsOf_append, List.mem_append] at this
      exact this.resolve_right (hclaims tok)

/-- A step that writes no history and keeps the status of terminal rows. -/
theorem Final.of_rows (hlog : s'.log = s.log) (hrows : ∀ id row, s.rows.get? id = some row → row.status.isTerminal = true →
    ∃ row', s'.rows.get? id = some row' ∧ row'.status = row.status) : Final s s' :=
  ⟨[], by rw [hlog, List.append_nil], fun id row hrow hterminal => ⟨hrows id row hrow hterminal, by simp, by simp⟩⟩

theorem Final.of_same (hlog : s'.log = s.log) (hrows : s'.rows = s.rows) : Final s s' :=
  .of_rows hlog fun _ row hrow _ => ⟨row, hrows ▸ hrow, rfl⟩

end

/-! ## Changes of one row -/

section
variable {s : Outbox} {id : ℕ} {f : Notification → Notification}

theorem Sound.modifyRow (h : s.Sound) (hf : ∀ row, s.rows.get? id = some row → row.Carried (f row)) :
    ({ s with rows := s.rows.modify id f } : Outbox).Sound := by
  have hrow : ∀ i row', (s.rows.modify id f).get? i = some row' → ∃ row, s.rows.get? i = some row ∧ row.Carried row' := by
    intro i row' hi
    rw [Table.get?_modify] at hi
    split at hi
    · next heq =>
      obtain ⟨row, hget, rfl⟩ := Option.map_eq_some_iff.1 hi
      exact ⟨row, hget, hf row (heq ▸ hget)⟩
    · exact ⟨row', hi, .refl row'⟩
  refine { h with attempts := ?_, redacted := ?_, counted := ?_, latest := ?_ }
  · intro i row' hi
    obtain ⟨row, hget, hc⟩ := hrow i row' hi
    rw [hc.attempts, hc.maxAttempts]
    exact h.attempts i row hget
  · intro i row' hi
    obtain ⟨row, hget, hc⟩ := hrow i row' hi
    exact hc.redacted (h.redacted i row hget)
  · intro i row' hi
    obtain ⟨row, hget, hc⟩ := hrow i row' hi
    rw [hc.attempts]
    exact h.counted i row hget
  · intro i row' tok hi htoken
    obtain ⟨row, hget, hc⟩ := hrow i row' hi
    exact h.latest i row tok hget (hc.claimToken tok htoken)

theorem Final.modifyRow (hf : ∀ row, s.rows.get? id = some row → row.Carried (f row)) :
    Final s { s with rows := s.rows.modify id f } := by
  refine .of_rows rfl fun i row hrow hterminal => ?_
  rw [Table.get?_modify]
  split
  · next heq => exact ⟨f row, by rw [hrow, Option.map_some], (hf row (heq ▸ hrow)).final hterminal⟩
  · exact ⟨row, hrow, rfl⟩

/-! ## Claims -/

theorem get?_purgeRows (rows : Table Notification) (purged : List ℕ) (id : ℕ) :
    (purgeRows rows purged).get? id = (rows.get? id).map fun row => if id ∈ purged then row.purge else row := by
  induction purged generalizing rows with
  | nil => simp [purgeRows]
  | cons i purged ih =>
    have hcons : purgeRows rows (i :: purged) = purgeRows (rows.modify i Notification.purge) purged := rfl
    rw [hcons, ih, Table.get?_modify]
    by_cases heq : id = i
    · subst heq
      rw [if_pos rfl, Option.map_map]
      congr 1
      funext row
      simp [Notification.purge]
    · simp [heq]

theorem Sound.purgeRows (h : s.Sound) (purged : List ℕ) : ({ s with rows := purgeRows s.rows purged } : Outbox).Sound ∧
    Final s { s with rows := Outbox.purgeRows s.rows purged } := by
  induction purged generalizing s with
  | nil => exact ⟨h, .of_same rfl rfl⟩
  | cons i purged ih =>
    have hpurge : ∀ row, s.rows.get? i = some row → row.Carried row.purge := fun row _ => row.carried_purge
    obtain ⟨hsound, hfinal⟩ := ih (h.modifyRow hpurge)
    exact ⟨hsound, (Final.modifyRow hpurge).trans hfinal⟩

section
variable {r : ℕ × Notification} {now : ℕ}

theorem Sound.handOut (h : s.Sound) (hrow : s.rows.get? r.1 = some r.2) (hexhausted : ¬r.2.exhausted now = true) :
    ({ s with
      rows := s.rows.modify r.1 fun _ => r.2.handOut now s.nextToken
      senders := s.senders.insert ⟨r.1, s.nextToken, .start⟩
      nextToken := s.nextToken + 1
      log := s.log ++ [.claimed r.1 s.nextToken] } : Outbox).Sound := by
  simp only [Notification.exhausted, Bool.or_eq_true, decide_eq_true_eq, not_or, not_le] at hexhausted
  have hget : ∀ id row, (s.rows.modify r.1 fun _ => r.2.handOut now s.nextToken).get? id = some row →
      (id = r.1 ∧ row = r.2.handOut now s.nextToken) ∨ (id ≠ r.1 ∧ s.rows.get? id = some row) := by
    intro id row hid
    rw [Table.get?_modify] at hid
    split at hid
    · next heq =>
      rw [heq, hrow] at hid
      exact .inl ⟨heq, (Option.some.inj hid).symm⟩
    · next hne => exact .inr ⟨hne, hid⟩
  have hsender : ∀ k t, (s.senders.insert ⟨r.1, s.nextToken, .start⟩).get? k = some t →
      (k = s.senders.nextId ∧ t = ⟨r.1, s.nextToken, .start⟩) ∨ s.senders.get? k = some t := by
    intro k t hk
    rw [Table.get?_insert] at hk
    split at hk
    · next heq => exact .inl ⟨heq, (Option.some.inj hk).symm⟩
    · exact .inr hk
  have hold : ∀ k t, s.senders.get? k = some t → t.token ≠ s.nextToken := fun k t hk =>
    (h.tokens _ (h.senders k t hk)).ne
  constructor
  · intro id row hid
    rcases hget id row hid with ⟨-, rfl⟩ | ⟨-, hid⟩
    · exact hexhausted.2
    · exact h.attempts id row hid
  · intro id row hid hterminal
    rcases hget id row hid with ⟨-, rfl⟩ | ⟨-, hid⟩
    · cases hterminal
    · exact h.redacted id row hid hterminal
  · intro id row hid
    simp only [claimsOf_append, claimsOf_claimed, List.filter_append, List.length_append]
    rcases hget id row hid with ⟨rfl, rfl⟩ | ⟨hne, hid⟩
    · simpa [Notification.handOut] using h.counted r.1 r.2 hrow
    · simpa [hne.symm] using h.counted id row hid
  · intro c hc
    simp only [claimsOf_append, claimsOf_claimed, List.mem_append, List.mem_singleton] at hc
    rcases hc with hc | rfl
    · exact h.known c hc
    · exact Table.lt_nextId (t := s.rows) hrow
  · intro c hc
    simp only [claimsOf_append, claimsOf_claimed, List.mem_append, List.mem_singleton] at hc
    rcases hc with hc | rfl
    · exact (h.tokens c hc).trans (Nat.lt_succ_self _)
    · exact Nat.lt_succ_self _
  · simp only [claimsOf_append, claimsOf_claimed, List.map_append, List.map_cons, List.map_nil]
    refine List.nodup_append.2 ⟨h.claimedOnce, List.nodup_singleton _, fun a ha b hb => ?_⟩
    obtain ⟨c, hc, rfl⟩ := List.mem_map.1 ha
    rw [List.mem_singleton.1 hb]
    exact (h.tokens c hc).ne
  · intro c hc
    simp only [sendsOf_append, sendsOf_claimed, List.append_nil] at hc
    rw [claimsOf_append]
    exact List.mem_append_left _ (h.sentClaimed c hc)
  · simpa using h.sentOnce
  · intro k t hk
    simp only [claimsOf_append, claimsOf_claimed, List.mem_append, List.mem_singleton]
    rcases hsender k t hk with ⟨-, rfl⟩ | hk
    · exact .inr rfl
    · exact .inl (h.senders k t hk)
  · intro j k t u hj hk htoken
    rcases hsender j t hj with ⟨rfl, rfl⟩ | hj <;> rcases hsender k u hk with ⟨rfl, rfl⟩ | hk
    · rfl
    · exact absurd htoken.symm (hold k u hk)
    · exact absurd htoken (hold j t hj)
    · exact h.apart j k t u hj hk htoken
  · intro k t hk hunsent c hc
    simp only [sendsOf_append, sendsOf_claimed, List.append_nil] at hc
    rcases hsender k t hk with ⟨-, rfl⟩ | hk
    · exact (h.tokens c (h.sentClaimed c hc)).ne
    · exact h.unsent k t hk hunsent c hc
  · intro k t copy hk hstage hterminal
    rcases hsender k t hk with ⟨-, rfl⟩ | hk
    · cases hstage
    · exact h.written k t copy hk hstage hterminal
  · intro id row tok hid htoken
    rcases hget id row hid with ⟨rfl, rfl⟩ | ⟨hne, hid⟩
    · obtain rfl : s.nextToken = tok := Option.some.inj htoken
      exact latest_claimed
    · exact (latest_claimed_of_ne hne).2 (h.latest id row tok hid htoken)

theorem Sound.claimRow (now : ℕ) (h : s.Sound) (hrow : s.rows.get? r.1 = some r.2) (hopen : r.2.status.isTerminal = false) :
    (claimRow now s r).Sound ∧ Final s (claimRow now s r) := by
  unfold Outbox.claimRow
  split
  · have hcarried : ∀ row, s.rows.get? r.1 = some row → row.Carried (r.2.giveUp now) := by
      intro row hget
      obtain rfl : r.2 = row := Option.some.inj (hrow.symm.trans hget)
      exact Notification.carried_giveUp hopen
    exact ⟨h.modifyRow hcarried, .modifyRow hcarried⟩
  · next hexhausted =>
    refine ⟨h.handOut hrow hexhausted, [.claimed r.1 s.nextToken], rfl, fun id row hget hterminal => ?_⟩
    have hne : id ≠ r.1 := by
      rintro rfl
      obtain rfl : r.2 = row := Option.some.inj (hrow.symm.trans hget)
      rw [hopen] at hterminal
      cases hterminal
    refine ⟨⟨row, by rw [Table.get?_modify_of_ne _ hne, hget], rfl⟩, fun tok hmem => ?_, by simp⟩
    rw [claimsOf_claimed, List.mem_singleton, Prod.mk.injEq] at hmem
    exact hne hmem.1

theorem claimRow_claims (now : ℕ) (s : Outbox) (r : ℕ × Notification) : (claimRow now s r).claims = s.claims := by
  unfold claimRow
  split <;> rfl

theorem get?_claimRow_of_ne {id : ℕ} (h : id ≠ r.1) : (claimRow now s r).rows.get? id = s.rows.get? id := by
  unfold claimRow
  split <;> exact Table.get?_modify_of_ne _ h

/-- The loop over the loaded rows: each is still in the table when its turn comes. -/
theorem Sound.claimRows (now : ℕ) {rows : List (ℕ × Notification)} (h : s.Sound) (hnodup : (rows.map Prod.fst).Nodup)
    (hrows : ∀ r ∈ rows, s.rows.get? r.1 = some r.2 ∧ r.2.status.isTerminal = false) :
    (rows.foldl (Outbox.claimRow now) s).Sound ∧ Final s (rows.foldl (Outbox.claimRow now) s) ∧
      (rows.foldl (Outbox.claimRow now) s).claims = s.claims ∧
      ∀ id, id ∉ rows.map Prod.fst → (rows.foldl (Outbox.claimRow now) s).rows.get? id = s.rows.get? id := by
  induction rows generalizing s with
  | nil => exact ⟨h, .refl s, rfl, fun _ _ => rfl⟩
  | cons r rows ih =>
    rw [List.map_cons, List.nodup_cons] at hnodup
    obtain ⟨hrow, hopen⟩ := hrows r List.mem_cons_self
    obtain ⟨hsound, hfinal⟩ := h.claimRow now hrow hopen
    have hrest : ∀ q ∈ rows, (Outbox.claimRow now s r).rows.get? q.1 = some q.2 ∧ q.2.status.isTerminal = false := by
      intro q hq
      have hne : q.1 ≠ r.1 := fun heq => hnodup.1 (heq ▸ List.mem_map_of_mem hq)
      rw [get?_claimRow_of_ne hne]
      exact hrows q (List.mem_cons_of_mem _ hq)
    obtain ⟨hs, hf, hclaims, hframe⟩ := ih hsound hnodup.2 hrest
    refine ⟨hs, hfinal.trans hf, hclaims.trans (claimRow_claims now s r), fun id hid => ?_⟩
    rw [List.map_cons, List.mem_cons, not_or] at hid
    exact (hframe id hid.2).trans (get?_claimRow_of_ne hid.1)

end

/-! ## Locks -/

/-- Claims end or stay as they are, and no row that one has locked changes. -/
theorem Locked.of_frame {s' : Outbox} (h : s.Locked) (hclaims : ∀ k t, s'.claims.get? k = some t → s.claims.get? k = some t)
    (hrows : ∀ k t, s'.claims.get? k = some t → ∀ id ∈ t.locks, ∀ row, s.rows.get? id = some row →
      s'.rows.get? id = some row) : s'.Locked where
  loaded k now purged rows hk := by
    obtain ⟨hnodup, hloaded⟩ := h.loaded k now purged rows (hclaims k _ hk)
    refine ⟨hnodup, fun r hr => ?_⟩
    obtain ⟨row, hget, heq, hopen⟩ := hloaded r hr
    exact ⟨row, hrows k _ hk r.1 (List.mem_append_right _ (List.mem_map_of_mem hr)) row hget, heq, hopen⟩
  exclusive j k t u hj hk := h.exclusive j k t u (hclaims j t hj) (hclaims k u hk)

theorem get?_erase_key {α : Type} {t : Table α} {id k : ℕ} {a : α} (h : (t.erase fun i _ => i == id).get? k = some a) :
    k ≠ id ∧ t.get? k = some a := by
  rw [Table.get?_erase, Option.filter_eq_some_iff] at h
  exact ⟨by simpa using h.2, h.1⟩

theorem notMem_locks_of_free {claim k id : ℕ} {u : ClaimTxn} (hfree : s.freeFor claim id = true)
    (hk : s.claims.get? k = some u) (hne : k ≠ claim) : id ∉ u.locks := by
  have := List.all_eq_true.1 hfree (k, u) (Table.get?_eq_some.1 hk)
  simpa [hne] using this

theorem notMem_locks_of_unlocked {k id : ℕ} {u : ClaimTxn} (hfree : s.unlocked id = true)
    (hk : s.claims.get? k = some u) : id ∉ u.locks := by
  have := List.all_eq_true.1 hfree (k, u) (Table.get?_eq_some.1 hk)
  simpa using this

theorem Locked.begin (h : s.Locked) (now batchSize : ℕ) :
    ({ s with claims := s.claims.insert (.purge now batchSize) } : Outbox).Locked := by
  have hget : ∀ k t, (s.claims.insert (.purge now batchSize)).get? k = some t →
      t = .purge now batchSize ∨ s.claims.get? k = some t := by
    intro k t hk
    rw [Table.get?_insert] at hk
    split at hk
    · exact .inl (Option.some.inj hk).symm
    · exact .inr hk
  constructor
  · intro k t purged rows hk
    exact h.loaded k t purged rows ((hget k _ hk).resolve_left nofun)
  · intro j k t u hj hk hne id hid
    rcases hget j t hj with rfl | hj
    · cases hid
    · rcases hget k u hk with rfl | hk
      · exact List.not_mem_nil
      · exact h.exclusive j k t u hj hk hne id hid

/-- A claim takes locks that are free, and what it has loaded is in the table. -/
theorem Locked.setClaim (h : s.Locked) {claim : ℕ} {t t' : ClaimTxn} (ht : s.claims.get? claim = some t)
    (hlocks : ∀ id ∈ t'.locks, id ∈ t.locks ∨ s.freeFor claim id = true)
    (hloaded : ∀ now purged rows, t' = .commit now purged rows → (rows.map Prod.fst).Nodup ∧
      ∀ r ∈ rows, ∃ row, s.rows.get? r.1 = some row ∧ r.2 = (if r.1 ∈ purged then row.purge else row) ∧
        row.status.isTerminal = false) :
    ({ s with claims := s.claims.modify claim fun _ => t' } : Outbox).Locked := by
  have hget : ∀ k u, (s.claims.modify claim fun _ => t').get? k = some u →
      (k = claim ∧ u = t') ∨ (k ≠ claim ∧ s.claims.get? k = some u) := by
    intro k u hk
    rw [Table.get?_modify] at hk
    split at hk
    · next heq =>
      rw [heq, ht] at hk
      exact .inl ⟨heq, (Option.some.inj hk).symm⟩
    · next hne => exact .inr ⟨hne, hk⟩
  -- a lock of the claim is none of another one
  have hother : ∀ k u, k ≠ claim → s.claims.get? k = some u → ∀ id ∈ t'.locks, id ∉ u.locks := by
    intro k u hne hk id hid
    rcases hlocks id hid with hid | hfree
    · exact h.exclusive claim k t u ht hk hne.symm id hid
    · exact notMem_locks_of_free hfree hk hne
  constructor
  · intro k now purged rows hk
    rcases hget k _ hk with ⟨-, heq⟩ | ⟨-, hk⟩
    · exact hloaded now purged rows heq.symm
    · exact h.loaded k now purged rows hk
  · intro j k u v hj hk hne id hid
    rcases hget j u hj with ⟨rfl, rfl⟩ | ⟨hjne, huj⟩ <;> rcases hget k v hk with ⟨rfl, rfl⟩ | ⟨hkne, hvk⟩
    · exact absurd rfl hne
    · exact hother k v hkne hvk id hid
    · exact fun hv => hother j u hjne huj id hv hid
    · exact h.exclusive j k u v huj hvk hne id hid

theorem mem_selected {claim now batchSize : ℕ} {r : ℕ × Notification} (h : r ∈ s.selected claim now batchSize) :
    s.rows.get? r.1 = some r.2 ∧ r.2.due now = true ∧ s.freeFor claim r.1 = true := by
  have hmem := (List.perm_insertionSort _ _).mem_iff.1 (List.mem_of_mem_take h)
  simp only [List.mem_filter, Bool.and_eq_true] at hmem
  exact ⟨Table.get?_eq_some.2 hmem.1, hmem.2⟩

theorem nodup_selected (s : Outbox) (claim now batchSize : ℕ) : ((s.selected claim now batchSize).map Prod.fst).Nodup := by
  have hfilter : ((s.rows.rows.filter fun r => r.2.due now && s.freeFor claim r.1).map Prod.fst).Nodup :=
    s.rows.nodup.sublist (List.filter_sublist.map _)
  have hsorted := ((List.perm_insertionSort (fun a b : ℕ × Notification => a.2.nextAttemptAt ≤ b.2.nextAttemptAt)
    (s.rows.rows.filter fun r => r.2.due now && s.freeFor claim r.1)).map Prod.fst).nodup_iff.2 hfilter
  exact hsorted.sublist ((List.take_sublist _ _).map _)

/-- The three statements of a claim. -/
theorem Sound.advanceClaim (h : s.Sound) (hl : s.Locked) {claim : ℕ} {t : ClaimTxn} (ht : s.claims.get? claim = some t) :
    (s.advanceClaim claim t).Sound ∧ (s.advanceClaim claim t).Locked ∧ Final s (s.advanceClaim claim t) := by
  cases t with
  | purge now batchSize =>
    simp only [Outbox.advanceClaim]
    split
    · next hfree =>
      refine ⟨{ h with }, hl.setClaim ht (fun id hid => .inr (List.all_eq_true.1 hfree id hid)) nofun, .of_same rfl rfl⟩
    · exact ⟨h, hl, .refl s⟩
  | select now batchSize purged =>
    refine ⟨{ h with }, hl.setClaim ht ?_ ?_, .of_same rfl rfl⟩
    · intro id hid
      simp only [ClaimTxn.locks, List.map_map, List.mem_append, List.mem_map, Function.comp_apply] at hid
      rcases hid with hid | ⟨r, hr, rfl⟩
      · exact .inl hid
      · exact .inr (mem_selected hr).2.2
    · rintro _ _ _ ⟨rfl, rfl, rfl⟩
      refine ⟨by simpa [Function.comp_def] using nodup_selected s claim now batchSize, fun r hr => ?_⟩
      obtain ⟨q, hq, rfl⟩ := List.mem_map.1 hr
      obtain ⟨hget, hdue, -⟩ := mem_selected hq
      exact ⟨q.2, hget, rfl, Notification.not_terminal_of_due hdue⟩
  | commit now purged rows =>
    obtain ⟨hnodup, hloaded⟩ := hl.loaded claim now purged rows ht
    obtain ⟨hpurged, hfinal⟩ := h.purgeRows purged
    have hrows : ∀ r ∈ rows, (Outbox.purgeRows s.rows purged).get? r.1 = some r.2 ∧ r.2.status.isTerminal = false := by
      intro r hr
      obtain ⟨row, hget, heq, hopen⟩ := hloaded r hr
      rw [get?_purgeRows, hget, Option.map_some, heq]
      refine ⟨rfl, ?_⟩
      split <;> exact hopen
    have hstart : ({ s.endClaim claim with rows := Outbox.purgeRows s.rows purged } : Outbox).Sound := { hpurged with }
    obtain ⟨hsound, hfinal', hclaims, hframe⟩ := hstart.claimRows now hnodup hrows
    have hfinal'' : Final s { s.endClaim claim with rows := Outbox.purgeRows s.rows purged } := hfinal
    refine ⟨hsound, hl.of_frame ?_ ?_, hfinal''.trans hfinal'⟩
    · intro k u hk
      exact (get?_erase_key (hclaims ▸ hk)).2
    · intro k u hk id hid row hget
      obtain ⟨hne, hk⟩ := get?_erase_key (hclaims ▸ hk)
      have hfree : id ∉ (ClaimTxn.commit now purged rows).locks := fun hmem =>
        hl.exclusive claim k _ u ht hk hne.symm id hmem hid
      simp only [ClaimTxn.locks, List.mem_append, not_or] at hfree
      refine (hframe id hfree.2).trans ?_
      change (Outbox.purgeRows s.rows purged).get? id = some row
      rw [get?_purgeRows, hget, Option.map_some, if_neg hfree.1]

/-! ## Senders -/

/-- Senders end, or go on with the same claim. -/
theorem Sound.withSenders (h : s.Sound) {senders : Table Sender}
    (hs : ∀ k t, senders.get? k = some t → ∃ t₀, s.senders.get? k = some t₀ ∧ t.rowId = t₀.rowId ∧ t.token = t₀.token ∧
      (t.stage.unsent = true → t₀.stage.unsent = true) ∧
      ∀ copy, t.stage = .write copy → copy.status.isTerminal = true → copy.sensitivePayload = none) :
    ({ s with senders := senders } : Outbox).Sound := by
  refine { h with senders := ?_, apart := ?_, unsent := ?_, written := ?_ }
  · intro k t hk
    obtain ⟨t₀, h₀, hrow, htoken, -⟩ := hs k t hk
    rw [hrow, htoken]
    exact h.senders k t₀ h₀
  · intro j k t u hj hk heq
    obtain ⟨t₀, ht₀, -, htoken, -⟩ := hs j t hj
    obtain ⟨u₀, hu₀, -, hutoken, -⟩ := hs k u hk
    exact h.apart j k t₀ u₀ ht₀ hu₀ (htoken ▸ hutoken ▸ heq)
  · intro k t hk hunsent
    obtain ⟨t₀, h₀, -, htoken, hstage, -⟩ := hs k t hk
    rw [htoken]
    exact h.unsent k t₀ h₀ (hstage hunsent)
  · intro k t copy hk
    obtain ⟨t₀, -, -, -, -, hwritten⟩ := hs k t hk
    exact hwritten copy

theorem Sound.endSender (h : s.Sound) (sender : ℕ) : (s.endSender sender).Sound := by
  refine h.withSenders fun k t hk => ?_
  have hk := (get?_erase_key hk).2
  exact ⟨t, hk, rfl, rfl, fun hunsent => hunsent, fun copy => h.written k t copy hk⟩

section
variable {sender : ℕ} {t : Sender}

/-- The sender itself at another stage, the others as they are. -/
theorem get?_setStage (ht : s.senders.get? sender = some t) {stage : SenderStage} {k : ℕ} {u : Sender}
    (hk : (s.setStage sender stage).senders.get? k = some u) :
    (k = sender ∧ u = { t with stage := stage }) ∨ (k ≠ sender ∧ s.senders.get? k = some u) := by
  rw [setStage, Table.get?_modify] at hk
  split at hk
  · next heq =>
    rw [heq, ht] at hk
    exact .inl ⟨heq, (Option.some.inj hk).symm⟩
  · next hne => exact .inr ⟨hne, hk⟩

theorem Sound.setStage (h : s.Sound) (ht : s.senders.get? sender = some t) {stage : SenderStage}
    (hunsent : stage.unsent = true → t.stage.unsent = true)
    (hwritten : ∀ copy, stage = .write copy → copy.status.isTerminal = true → copy.sensitivePayload = none) :
    (s.setStage sender stage).Sound := by
  refine h.withSenders fun k u hk => ?_
  rcases get?_setStage ht hk with ⟨rfl, rfl⟩ | ⟨-, hk⟩
  · exact ⟨t, ht, rfl, rfl, hunsent, hwritten⟩
  · exact ⟨u, hk, rfl, rfl, fun hu => hu, fun copy => h.written k u copy hk⟩

/-- A sender that has not sent yet sends and goes on to its last statement. -/
theorem Sound.send (h : s.Sound) (ht : s.senders.get? sender = some t) (hunsent : t.stage.unsent = true)
    {copy : Notification} (hcopy : copy.status.isTerminal = true → copy.sensitivePayload = none) :
    (({ s with log := s.log ++ [.sent t.rowId t.token] } : Outbox).setStage sender (.write copy)).Sound := by
  have hclaimed := h.senders sender t ht
  have hset : ∀ k u, ((s.setStage sender (.write copy)).senders.get? k = some u) →
      (k = sender ∧ u = { t with stage := .write copy }) ∨ (k ≠ sender ∧ s.senders.get? k = some u) :=
    fun k u hk => get?_setStage ht hk
  constructor
  · exact h.attempts
  · exact h.redacted
  · simpa [Outbox.setStage] using h.counted
  · simpa [Outbox.setStage] using h.known
  · simpa [Outbox.setStage] using h.tokens
  · simpa [Outbox.setStage] using h.claimedOnce
  · intro c hc
    simp only [Outbox.setStage, sendsOf_append, sendsOf_sent, List.mem_append, List.mem_singleton] at hc
    simp only [Outbox.setStage, claimsOf_append, claimsOf_sent, List.append_nil]
    rcases hc with hc | rfl
    · exact h.sentClaimed c hc
    · exact hclaimed
  · simp only [Outbox.setStage, sendsOf_append, sendsOf_sent, List.map_append, List.map_cons, List.map_nil]
    refine List.nodup_append.2 ⟨h.sentOnce, List.nodup_singleton _, fun a ha b hb => ?_⟩
    obtain ⟨c, hc, rfl⟩ := List.mem_map.1 ha
    rw [List.mem_singleton.1 hb]
    exact h.unsent sender t ht hunsent c hc
  · intro k u hk
    simp only [Outbox.setStage, claimsOf_append, claimsOf_sent, List.append_nil]
    rcases hset k u hk with ⟨-, rfl⟩ | ⟨-, hk⟩
    · exact hclaimed
    · exact h.senders k u hk
  · intro j k u v hj hk heq
    rcases hset j u hj with ⟨rfl, rfl⟩ | ⟨-, huj⟩ <;> rcases hset k v hk with ⟨rfl, rfl⟩ | ⟨-, hvk⟩
    · rfl
    · exact h.apart j k t v ht hvk heq
    · exact h.apart j k u t huj ht heq
    · exact h.apart j k u v huj hvk heq
  · intro k u hk hu c hc
    simp only [Outbox.setStage, sendsOf_append, sendsOf_sent, List.mem_append, List.mem_singleton] at hc
    rcases hset k u hk with ⟨-, rfl⟩ | ⟨hne, hk⟩
    · cases hu
    · rcases hc with hc | rfl
      · exact h.unsent k u hk hu c hc
      · exact fun heq => hne (h.apart k sender u t hk ht heq.symm)
  · intro k u written hk hstage hterminal
    rcases hset k u hk with ⟨-, rfl⟩ | ⟨-, hk⟩
    · obtain rfl : copy = written := SenderStage.write.inj hstage
      exact hcopy hterminal
    · exact h.written k u written hk hstage hterminal
  · intro id row tok hid htoken
    exact latest_sent.2 (h.latest id row tok hid htoken)

/-- One row that no claim has locked changes. -/
theorem Locked.modifyRow (h : s.Locked) {id : ℕ} (hfree : s.unlocked id = true) (f : Notification → Notification) :
    ({ s with rows := s.rows.modify id f } : Outbox).Locked := by
  refine h.of_frame (fun _ _ hk => hk) fun k u hk i hi row hget => ?_
  have hne : i ≠ id := fun heq => notMem_locks_of_unlocked hfree hk (heq ▸ hi)
  exact (Table.get?_modify_of_ne f hne).trans hget

theorem Sound.advanceSender (h : s.Sound) (hl : s.Locked) (ht : s.senders.get? sender = some t) (around : Surroundings)
    (delivery : Delivery) :
    (s.advanceSender sender t around delivery).Sound ∧ (s.advanceSender sender t around delivery).Locked ∧
      Final s (s.advanceSender sender t around delivery) := by
  unfold Outbox.advanceSender
  cases hstage : t.stage with
  | start =>
    have hend : (s.endSender sender).Sound ∧ (s.endSender sender).Locked ∧ Final s (s.endSender sender) :=
      ⟨h.endSender sender, { hl with }, .of_same rfl rfl⟩
    simp only
    split
    · split
      · exact ⟨h.setStage ht (by simp [hstage, SenderStage.unsent]) (fun _ hw => by cases hw), { hl with }, .of_same rfl rfl⟩
      · exact hend
    · exact hend
  | check copy =>
    simp only
    split
    · exact ⟨h.setStage ht (by simp [hstage, SenderStage.unsent]) (fun _ hw => by cases hw), { hl with }, .of_same rfl rfl⟩
    · refine ⟨h.setStage ht nofun fun written hw _ => ?_, { hl with }, .of_same rfl rfl⟩
      exact SenderStage.write.inj hw ▸ copy.redacted_ineligible
  | send copy =>
    have hcopy := @Notification.redacted_settled copy around.now delivery.result
    simp only
    split
    · refine ⟨h.send ht (by simp [hstage, SenderStage.unsent]) hcopy, { hl with }, [.sent t.rowId t.token], rfl, ?_⟩
      intro id row hget hterminal
      refine ⟨⟨row, hget, rfl⟩, by simp, fun tok hmem => ?_⟩
      rw [sendsOf_sent, List.mem_singleton] at hmem
      exact hmem ▸ h.senders sender t ht
    · refine ⟨h.setStage ht nofun fun written hw => ?_, { hl with }, .of_same rfl rfl⟩
      exact SenderStage.write.inj hw ▸ hcopy
  | write copy =>
    simp only [writeResult]
    split
    · next hfree =>
      have hcarried : ∀ row, s.rows.get? t.rowId = some row →
          row.Carried (if row.heldBy t.token = true then row.withResult copy else row) := fun row _ =>
        Notification.carried_withResult (h.written sender t copy ht hstage)
      have hended := (h.endSender sender).modifyRow hcarried
      have hlocked := hl.modifyRow hfree fun row => if row.heldBy t.token = true then row.withResult copy else row
      have hfinal := Final.modifyRow hcarried
      exact ⟨hended, { hlocked with }, hfinal⟩
    · exact ⟨h, hl, .refl s⟩

end

/-! ## Steps and runs -/

theorem Sound.enqueue (h : s.Sound) {row : Notification} (hattempts : row.attempts = 0)
    (hopen : row.status.isTerminal = false) (htoken : row.claimToken = none) :
    ({ s with rows := s.rows.insert row } : Outbox).Sound := by
  have hget : ∀ id r, (s.rows.insert row).get? id = some r → (id = s.rows.nextId ∧ r = row) ∨ s.rows.get? id = some r := by
    intro id r hid
    rw [Table.get?_insert] at hid
    split at hid
    · next heq => exact .inl ⟨heq, (Option.some.inj hid).symm⟩
    · exact .inr hid
  refine { h with attempts := ?_, redacted := ?_, counted := ?_, known := ?_, latest := ?_ }
  · intro id r hid
    rcases hget id r hid with ⟨-, rfl⟩ | hid
    · rw [hattempts]
      exact Nat.zero_le _
    · exact h.attempts id r hid
  · intro id r hid hterminal
    rcases hget id r hid with ⟨-, rfl⟩ | hid
    · rw [hopen] at hterminal
      cases hterminal
    · exact h.redacted id r hid hterminal
  · intro id r hid
    rcases hget id r hid with ⟨rfl, rfl⟩ | hid
    · -- the key of the new row is in no claim
      have hnone : ((claimsOf s.log).filter fun c => c.1 = s.rows.nextId) = [] :=
        List.filter_eq_nil_iff.2 fun c hc => by simp [(h.known c hc).ne]
      exact (congrArg List.length hnone).trans_le (Nat.zero_le _)
    · exact h.counted id r hid
  · exact fun c hc => (h.known c hc).trans (Nat.lt_succ_self _)
  · intro id r tok hid hr
    rcases hget id r hid with ⟨-, rfl⟩ | hid
    · rw [htoken] at hr
      cases hr
    · exact h.latest id r tok hid hr

/-- **Step lemma.** -/
theorem Sound.step (h : s.Sound) (hl : s.Locked) (a : OutboxAction) :
    (s.step a).Sound ∧ (s.step a).Locked ∧ Final s (s.step a) := by
  cases a with
  | enqueue row =>
    refine ⟨h.enqueue rfl rfl rfl, hl.of_frame (fun _ _ hk => hk) fun k t hk id hid r hget => ?_, .of_rows rfl ?_⟩
    · exact Table.get?_insert_of_some hget
    · exact fun id r hget _ => ⟨r, Table.get?_insert_of_some hget, rfl⟩
  | claim now batchSize => exact ⟨{ h with }, hl.begin now batchSize, .of_same rfl rfl⟩
  | advance claim =>
    simp only [Outbox.step]
    cases ht : s.claims.get? claim with
    | some t => exact h.advanceClaim hl ht
    | none => exact ⟨h, hl, .refl s⟩
  | abandon claim =>
    refine ⟨{ h with }, hl.of_frame (fun k t hk => (get?_erase_key hk).2) fun _ _ _ _ _ _ hget => hget, .of_same rfl rfl⟩
  | deliver sender around delivery =>
    simp only [Outbox.step]
    cases ht : s.senders.get? sender with
    | some t => exact h.advanceSender hl ht around delivery
    | none => exact ⟨h, hl, .refl s⟩
  | stop sender => exact ⟨h.endSender sender, { hl with }, .of_same rfl rfl⟩

theorem sound_run (as : List OutboxAction) : (run step empty as).Sound ∧ (run step empty as).Locked :=
  run_invariant (fun s : Outbox => s.Sound ∧ s.Locked) (fun _ a h => ⟨(h.1.step h.2 a).1, (h.1.step h.2 a).2.1⟩) as
    ⟨sound_empty, locked_empty⟩

theorem final_run (h : s.Sound) (hl : s.Locked) (as : List OutboxAction) : Final s (run step s as) := by
  induction as generalizing s with
  | nil => exact .refl s
  | cons a as ih =>
    obtain ⟨hs, hl', hfinal⟩ := h.step hl a
    exact hfinal.trans (ih hs hl')

/-- The `UPDATE` of a sender whose claim is not the latest of the row matches nothing. -/
theorem rows_of_replaced (h : s.Sound) {sender : ℕ} {t : Sender} (ht : s.senders.get? sender = some t)
    (hreplaced : ¬Latest s.log t.rowId t.token) (around : Surroundings) (delivery : Delivery) :
    (s.step (.deliver sender around delivery)).rows = s.rows := by
  simp only [step, ht, advanceSender]
  cases t.stage with
  | start =>
    simp only
    split
    · split <;> rfl
    · rfl
  | check copy =>
    simp only
    split <;> rfl
  | send copy =>
    simp only
    split <;> rfl
  | write copy =>
    simp only [writeResult]
    split
    · refine modify_of_fixed fun row hrow => if_neg fun hheld => hreplaced ?_
      simp only [Notification.heldBy, Bool.and_eq_true, beq_iff_eq] at hheld
      exact h.latest t.rowId row t.token hrow hheld.2
    · rfl

/-- **The notification outbox.** However claims and senders interleave, stop and outlive their lease: attempts stay
within their limit, a claim token sends once and a message at most `max_attempts` times, a terminal row stays as it
is and holds no ciphertext, and a sender whose claim was replaced leaves the table alone. -/
theorem outbox_delivers (as : List OutboxAction) :
    (run step empty as).Delivers ∧
    (∀ more, Final (run step empty as) (run step (run step empty as) more)) ∧
    ∀ sender t, (run step empty as).senders.get? sender = some t → ¬Latest (run step empty as).log t.rowId t.token →
      ∀ around delivery, ((run step empty as).step (.deliver sender around delivery)).rows = (run step empty as).rows := by
  obtain ⟨h, hl⟩ := sound_run as
  exact ⟨h.delivers, final_run h hl, fun sender t ht hreplaced => rows_of_replaced h ht hreplaced⟩

/-- A lease that runs out while the first sender is still sending: its result no longer counts. -/
example :
    let around : Surroundings := ⟨0, true, some 7, some 9, fun _ => true, none, false, none⟩
    let alert : Notification :=
      { eventType := "DISK_USAGE", category := "system", destinationType := .adminGroup, destinationReference := 9,
        botId := some 7, expiresAt := seconds 1000 }
    let s := run step empty ([.enqueue alert, .claim 0 5, .advance 1, .advance 1, .advance 1] ++
      List.replicate 3 (.deliver 1 around ⟨.sent, true⟩) ++
      [.claim (seconds 121) 5, .advance 2, .advance 2, .advance 2, .deliver 1 around ⟨.sent, true⟩])
    s.log = [.claimed 1 0, .sent 1 0, .claimed 1 1] ∧ s.rows.values.map (·.status) = [.processing] := by
  decide +kernel

end
end Outbox
end LcsSystem.Telegram
