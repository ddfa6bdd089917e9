import LcsSystem.Telegram.Linkage

/-!
# What linking keeps, and the migration that never happens

`Handled` lists what `process_update` can make of the database. All but the migration of the admin group hold in every
run; that branch raises, so it holds exactly where no accepted migration leads to another id.
-/

namespace LcsSystem.Telegram
open Relational History Transition

variable {hash : String → String}

section
variable {db db' : TelegramDb} {answers : Answers} {updateId botId : ℕ}

/-! ## What a call does -/

/-- The outcomes of `process_update`. -/
inductive Handled (db : TelegramDb) : TelegramDb → Prop
  | replayed : Handled db db
  | received (u : ℕ) (hu : u ∉ db.updates) : Handled db { db with updates := db.updates ++ [u] }
  | linked (u c : ℕ) (p : TelegramPairing) (sender chat : ℤ) (now : ℕ) (hu : u ∉ db.updates)
      (hp : db.pairings.get? c = some p) (hkind : p.kind = .privateChat) (hused : p.usedAt = none) (htime : now < p.expiresAt)
      (huser : ∀ l ∈ db.links, l.userId ≠ p.userId) (hsender : ∀ l ∈ db.links, l.telegramUserId ≠ sender) :
      Handled db { db with
        updates := db.updates ++ [u]
        links := db.links ++ [⟨p.userId, sender, p.botId, chat⟩]
        outbox := db.outbox ++ [⟨false, chat, .pending⟩]
        pairings := db.pairings.modify c fun p => { p with usedAt := some now }
        log := db.log ++ [.linked u c p.userId sender p.botId now] }
  | nominated (u c : ℕ) (p : TelegramPairing) (chat : ℤ) (now : ℕ) (hu : u ∉ db.updates)
      (hp : db.pairings.get? c = some p) (hkind : p.kind = .group) (hused : p.usedAt = none) (htime : now < p.expiresAt) :
      Handled db { db with
        updates := db.updates ++ [u]
        pairings := db.pairings.modify c fun p => { p with candidateId := some chat, usedAt := some now }
        log := db.log ++ [.nominated u c chat p.botId now] }

/-- A `return` before anything but the receipt is written. -/
theorem handled_received {u : ℕ} (hu : u ∉ db.updates)
    (h : Except.ok (ε := TelegramFailure) { db with updates := db.updates ++ [u] } = .ok db') : Handled db db' :=
  Except.ok.inj h ▸ .received u hu

theorem findPairing_eq_some {tokenHash : String} {r : ℕ × TelegramPairing} (h : findPairing db tokenHash = some r) :
    db.pairings.get? r.1 = some r.2 := Table.get?_eq_some.2 (List.mem_of_find?_eq_some h)

theorem openPairing_eq_some {argument : String} {r : ℕ × TelegramPairing} {botId : ℤ}
    (h : openPairing hash db answers argument = some (r, botId)) :
    db.pairings.get? r.1 = some r.2 ∧ r.2.usedAt = none ∧ answers.now < r.2.expiresAt ∧ r.2.botId = botId := by
  unfold openPairing at h
  split at h
  · next q b hfind hbot =>
    split at h
    · next hopen =>
      obtain ⟨rfl, rfl⟩ := Prod.mk.inj (Option.some.inj h)
      exact ⟨findPairing_eq_some hfind, hopen.1, hopen.2.1, hopen.2.2.1⟩
    · cases h
  · cases h

/-- The migration branch commits nothing but the receipt. -/
theorem migrate_eq_ok {migration : ℤ} (h : migrate db answers migration = .ok db') : db' = db := by
  unfold migrate at h
  cases hc : clientOf db.config answers with
  | error e => simp [hc, bind, Except.bind] at h
  | ok _ =>
    cases hchat : callChat answers migration with
    | error e => simp [hc, hchat, bind, Except.bind] at h
    | ok chat =>
      simp only [hc, hchat, bind, Except.bind] at h
      split at h
      · cases h
      · exact (Except.ok.inj h).symm

theorem handled_pairPrivate {u : ℕ} {m : Message} {r : ℕ × TelegramPairing} (hu : u ∉ db.updates)
    (hp : db.pairings.get? r.1 = some r.2) (hkind : r.2.kind = .privateChat) (hused : r.2.usedAt = none)
    (htime : answers.now < r.2.expiresAt) :
    Handled db (pairPrivate { db with updates := db.updates ++ [u] } answers u m r r.2.botId) := by
  unfold pairPrivate
  split
  · exact .received u hu
  · split
    · exact .received u hu
    · next huser =>
      split
      · exact .received u hu
      · next hsender =>
        simp only [List.any_eq_true, beq_iff_eq, not_exists, not_and] at huser hsender
        exact .linked u r.1 r.2 m.senderId m.chatId answers.now hu hp hkind hused htime huser hsender

theorem handled_pairGroup {u : ℕ} {m : Message} {r : ℕ × TelegramPairing} (hu : u ∉ db.updates)
    (hp : db.pairings.get? r.1 = some r.2) (hkind : r.2.kind = .group) (hused : r.2.usedAt = none)
    (htime : answers.now < r.2.expiresAt)
    (h : pairGroup { db with updates := db.updates ++ [u] } answers u m r r.2.botId = .ok db') : Handled db db' := by
  unfold pairGroup at h
  cases hc : clientOf db.config answers with
  | error e => simp [hc, bind, Except.bind] at h
  | ok _ =>
    cases hchat : callChat answers m.chatId with
    | error e => simp [hc, hchat, bind, Except.bind] at h
    | ok chat =>
      simp only [hc, hchat, bind, Except.bind] at h
      split at h
      · cases h
      · split at h
        · exact handled_received hu h
        · split at h
          · cases h
          · rw [← Except.ok.inj h]
            exact .nominated u r.1 r.2 m.chatId answers.now hu hp hkind hused htime

theorem handled_of_processUpdate {body : Entries} (h : processUpdate hash db answers body = .ok db') : Handled db db' := by
  unfold processUpdate at h
  split at h
  · cases h
  · next u hid =>
    split at h
    · cases h
    · split at h
      · rw [← Except.ok.inj h]
        exact .replayed
      · next hu =>
        simp only at h
        split at h
        · exact handled_received hu h
        · next m hm =>
          split at h
          · rw [migrate_eq_ok h]
            exact .received u hu
          · unfold handleCommand at h
            split at h
            · exact handled_received hu h
            · next command argument hcommand =>
              split at h
              · exact handled_received hu h
              · next r botId hopen =>
                obtain ⟨hp, hused, htime, rfl⟩ := openPairing_eq_some hopen
                split at h
                · next hkind =>
                  rw [← Except.ok.inj h]
                  split
                  · exact handled_pairPrivate hu hp hkind hused htime
                  · exact .received u hu
                · next hkind =>
                  split at h
                  · split at h
                    · split at h
                      · exact handled_pairGroup hu hp hkind hused htime h
                      · exact handled_received hu h
                    · cases h
                    · cases h
                    · exact handled_received hu h
                  · exact handled_received hu h

/-! ## The invariant -/

theorem filterMap_concat_of_none {α : Type} {f : LinkageEvent → Option α} {e : LinkageEvent} (h : f e = none)
    (log : List LinkageEvent) : (log ++ [e]).filterMap f = log.filterMap f := by
  rw [List.filterMap_append, List.filterMap_cons_none h, List.filterMap_nil, List.append_nil]

structure LinkageSound (db : TelegramDb) : Prop where
  linked : Linked db
  receipts : ∀ u ∈ db.log.filterMap LinkageEvent.updateId?, u ∈ db.updates
  numbered : ∀ c ∈ db.log.filterMap LinkageEvent.challenge?, c < db.pairings.nextId
  unused : ∀ c p, db.pairings.get? c = some p → p.usedAt = none → c ∉ db.log.filterMap LinkageEvent.challenge?
  issued : ∀ c p, db.pairings.get? c = some p → .issued c p.kind p.userId p.botId p.expiresAt ∈ db.log

theorem linkageSound_unlinked (config : TelegramConfig) : LinkageSound (unlinked config) where
  linked := ⟨by simp [unlinked], by simp [unlinked], explained_nil, by simp [unlinked], by simp [unlinked]⟩
  receipts := by simp [unlinked]
  numbered := by simp [unlinked]
  unused := by simp [unlinked]
  issued := by simp [unlinked, Table.empty, Table.get?, Table.find]

/-- Pairings are deleted, and nothing else that the invariant is about changes. -/
theorem LinkageSound.withPairings (h : LinkageSound db) (pairings : Table TelegramPairing)
    (hnext : pairings.nextId = db.pairings.nextId) (hget : ∀ c p, pairings.get? c = some p → db.pairings.get? c = some p)
    (config : TelegramConfig) (outbox : List OutboxRow) :
    LinkageSound { db with pairings := pairings, config := config, outbox := outbox } where
  linked := { h.linked with }
  receipts := h.receipts
  numbered := hnext ▸ h.numbered
  unused c p hp := h.unused c p (hget c p hp)
  issued c p hp := h.issued c p (hget c p hp)

theorem get?_of_erase {α : Type} {t : Table α} {p : ℕ → α → Bool} {c : ℕ} {a : α} (h : (t.erase p).get? c = some a) :
    t.get? c = some a := by
  rw [Table.get?_erase, Option.filter_eq_some_iff] at h
  exact h.1

theorem LinkageSound.createPairing (h : LinkageSound db) {now userId : ℕ} {kind : PairingKind} {token : String}
    (hok : createPairing hash db now userId kind token = .ok db') : LinkageSound db' := by
  unfold Telegram.createPairing at hok
  split at hok
  · cases hok
  · next botId hbot =>
    split at hok
    · cases hok
    simp only at hok
    split at hok
    · cases hok
    rw [← Except.ok.inj hok]
    have hget : ∀ c p, ((db.pairings.erase fun _ p => p.userId == userId && p.kind == kind).insert
        ⟨hash token, userId, kind, botId, now + pairingLifetime, none, none⟩).get? c = some p →
        (c = db.pairings.nextId ∧ p = ⟨hash token, userId, kind, botId, now + pairingLifetime, none, none⟩) ∨
          db.pairings.get? c = some p := by
      intro c p hp
      rw [Table.get?_insert] at hp
      split at hp
      · next heq => exact .inl ⟨heq, (Option.some.inj hp).symm⟩
      · exact .inr (get?_of_erase hp)
    refine { linked := { h.linked with updatesOnce := ?_, challengesOnce := ?_, inTime := ?_ }, receipts := ?_,
             numbered := ?_, unused := ?_, issued := ?_ }
    · rw [filterMap_concat_of_none rfl]
      exact h.linked.updatesOnce
    · rw [filterMap_concat_of_none rfl]
      exact h.linked.challengesOnce
    · exact explained_concat.2 ⟨h.linked.inTime, trivial⟩
    · rw [filterMap_concat_of_none rfl]
      exact h.receipts
    · intro c hc
      rw [filterMap_concat_of_none rfl] at hc
      exact (h.numbered c hc).trans (Nat.lt_succ_self _)
    · intro c p hp hused hc
      rw [filterMap_concat_of_none rfl] at hc
      rcases hget c p hp with ⟨rfl, -⟩ | hp
      · exact lt_irrefl _ (h.numbered _ hc)
      · exact h.unused c p hp hused hc
    · intro c p hp
      rcases hget c p hp with ⟨rfl, rfl⟩ | hp
      · exact List.mem_append_right _ (List.mem_singleton.2 rfl)
      · exact List.mem_append_left _ (h.issued c p hp)

/-- An unused challenge is taken up by a new update. -/
theorem LinkageSound.takeUp (h : LinkageSound db) {u c : ℕ} {p : TelegramPairing} (now : ℕ) (e : LinkageEvent)
    (f : TelegramPairing → TelegramPairing) (hu : u ∉ db.updates) (hp : db.pairings.get? c = some p)
    (hused : p.usedAt = none) (hupdate : e.updateId? = some u) (hchallenge : e.challenge? = some c)
    (htime : InTime db.log e) (hf : ∀ q : TelegramPairing, (f q).usedAt = some now ∧ (f q).kind = q.kind ∧
      (f q).userId = q.userId ∧ (f q).botId = q.botId ∧ (f q).expiresAt = q.expiresAt) :
    LinkageSound { db with
      updates := db.updates ++ [u]
      pairings := db.pairings.modify c f
      log := db.log ++ [e] } := by
  have hget : ∀ i q, (db.pairings.modify c f).get? i = some q →
      (∃ q₀, db.pairings.get? i = some q₀ ∧ i = c ∧ q = f q₀) ∨ (i ≠ c ∧ db.pairings.get? i = some q) := by
    intro i q hq
    rw [Table.get?_modify] at hq
    split at hq
    · next heq =>
      obtain ⟨q₀, hq₀, rfl⟩ := Option.map_eq_some_iff.1 hq
      exact .inl ⟨q₀, hq₀, heq, rfl⟩
    · next hne => exact .inr ⟨hne, hq⟩
  have hupdates : (db.log ++ [e]).filterMap LinkageEvent.updateId? = db.log.filterMap LinkageEvent.updateId? ++ [u] := by
    simp [hupdate]
  have hchallenges : (db.log ++ [e]).filterMap LinkageEvent.challenge? =
      db.log.filterMap LinkageEvent.challenge? ++ [c] := by simp [hchallenge]
  refine { linked := { h.linked with updatesOnce := ?_, challengesOnce := ?_, inTime := ?_ }, receipts := ?_,
           numbered := ?_, unused := ?_, issued := ?_ }
  · rw [hupdates]
    refine List.nodup_append.2 ⟨h.linked.updatesOnce, List.nodup_singleton _, fun a ha b hb => ?_⟩
    rintro rfl
    exact hu (List.mem_singleton.1 hb ▸ h.receipts a ha)
  · rw [hchallenges]
    refine List.nodup_append.2 ⟨h.linked.challengesOnce, List.nodup_singleton _, fun a ha b hb => ?_⟩
    rintro rfl
    exact h.unused c p hp hused (List.mem_singleton.1 hb ▸ ha)
  · exact explained_concat.2 ⟨h.linked.inTime, htime⟩
  · intro x hx
    rw [hupdates, List.mem_append] at hx
    rcases hx with hx | hx
    · exact List.mem_append_left _ (h.receipts x hx)
    · exact List.mem_append_right _ hx
  · intro x hx
    rw [hchallenges, List.mem_append] at hx
    rcases hx with hx | hx
    · exact h.numbered x hx
    · rw [List.mem_singleton.1 hx]
      exact Table.lt_nextId (t := db.pairings) hp
  · intro i q hq hnone hmem
    rw [hchallenges, List.mem_append, List.mem_singleton] at hmem
    rcases hget i q hq with ⟨q₀, -, -, rfl⟩ | ⟨hne, hq⟩
    · rw [(hf q₀).1] at hnone
      cases hnone
    · exact h.unused i q hq hnone (hmem.resolve_right hne)
  · intro i q hq
    refine List.mem_append_left _ ?_
    rcases hget i q hq with ⟨q₀, hq₀, -, rfl⟩ | ⟨-, hq⟩
    · obtain ⟨-, hkind, huser, hbot, hexpires⟩ := hf q₀
      rw [hkind, huser, hbot, hexpires]
      exact h.issued i q₀ hq₀
    · exact h.issued i q hq

theorem nodup_concat_of_ne {α β : Type} {f : α → β} {l : List α} {a : α} (h : (l.map f).Nodup) (ha : ∀ x ∈ l, f x ≠ f a) :
    ((l ++ [a]).map f).Nodup := by
  rw [List.map_append, List.map_cons, List.map_nil]
  refine List.nodup_append.2 ⟨h, List.nodup_singleton _, fun x hx y hy => ?_⟩
  obtain ⟨z, hz, rfl⟩ := List.mem_map.1 hx
  rw [List.mem_singleton.1 hy]
  exact ha z hz

theorem LinkageSound.handled (h : LinkageSound db) (hdb : Handled db db') : LinkageSound db' := by
  cases hdb with
  | replayed => exact h
  | received u hu =>
    exact { h with linked := { h.linked with }, receipts := fun x hx => List.mem_append_left _ (h.receipts x hx) }
  | linked u c p sender chat now hu hp hkind hused htime huser hsender =>
    have hissued := h.issued c p hp
    rw [hkind] at hissued
    have hsound := h.takeUp now (.linked u c p.userId sender p.botId now) (fun p => { p with usedAt := some now }) hu hp
      hused rfl rfl ⟨p.expiresAt, hissued, htime⟩ fun q => ⟨rfl, rfl, rfl, rfl, rfl⟩
    exact { hsound with
      linked := { hsound.linked with
        oneUser := nodup_concat_of_ne h.linked.oneUser huser
        oneTelegramUser := nodup_concat_of_ne h.linked.oneTelegramUser hsender } }
  | nominated u c p chat now hu hp hkind hused htime =>
    have hissued := h.issued c p hp
    rw [hkind] at hissued
    exact h.takeUp now (.nominated u c chat p.botId now)
      (fun p => { p with candidateId := some chat, usedAt := some now }) hu hp hused rfl rfl ⟨p.userId, p.expiresAt, hissued, htime⟩
      fun q => ⟨rfl, rfl, rfl, rfl, rfl⟩

/-! ## Steps and runs -/

theorem confirmGroup_eq_ok {userId : ℕ} {token : String} (h : confirmGroup hash db answers userId token = .ok db') :
    ∃ r config, db' = { db with config := config, pairings := db.pairings.erase fun id _ => id == r } := by
  unfold confirmGroup at h
  split at h
  · cases h
  · next r hfind =>
    split at h
    · cases h
    · next candidate hcandidate =>
      split at h
      · cases h
      · cases hc : clientOf db.config answers with
        | error e => simp [hc, bind, Except.bind] at h
        | ok _ =>
          cases hchat : callChat answers candidate with
          | error e => simp [hc, hchat, bind, Except.bind] at h
          | ok chat =>
            simp only [hc, hchat, bind, Except.bind] at h
            split at h
            · cases h
            · exact ⟨r.1, _, (Except.ok.inj h).symm⟩

/-- **Step lemma.** -/
theorem LinkageSound.step (h : LinkageSound db) (call : LinkageCall) : LinkageSound (linkageStep hash db call) := by
  unfold linkageStep
  split
  · next db' hok =>
    cases call with
    | createPairing now userId kind token => exact h.createPairing hok
    | processUpdate answers body => exact h.handled (handled_of_processUpdate hok)
    | confirmGroup answers userId token =>
      obtain ⟨r, config, rfl⟩ := confirmGroup_eq_ok hok
      exact h.withPairings (db.pairings.erase fun id _ => id == r) rfl (fun _ _ hp => get?_of_erase hp) config db.outbox
    | configure config =>
      rw [← Except.ok.inj hok]
      exact h.withPairings _ rfl (fun _ _ hp => hp) config db.outbox
    | setOutbox outbox =>
      rw [← Except.ok.inj hok]
      exact h.withPairings _ rfl (fun _ _ hp => hp) db.config outbox
  · exact h

theorem LinksKept.refl (db : TelegramDb) : LinksKept db db := ⟨List.prefix_rfl, List.prefix_rfl⟩

theorem Handled.kept (h : Handled db db') : LinksKept db db' := by
  cases h with
  | replayed => exact .refl db
  | received => exact ⟨List.prefix_rfl, List.prefix_rfl⟩
  | linked => exact ⟨List.prefix_append _ _, List.prefix_append _ _⟩
  | nominated => exact ⟨List.prefix_rfl, List.prefix_append _ _⟩

theorem linksKept_step (db : TelegramDb) (call : LinkageCall) : LinksKept db (linkageStep hash db call) := by
  unfold linkageStep
  split
  · next db' hok =>
    cases call with
    | createPairing now userId kind token =>
      simp only [LinkageCall.run, createPairing] at hok
      split at hok
      · cases hok
      · split at hok
        · cases hok
        split at hok
        · cases hok
        rw [← Except.ok.inj hok]
        exact ⟨List.prefix_rfl, List.prefix_append _ _⟩
    | processUpdate answers body => exact (handled_of_processUpdate hok).kept
    | confirmGroup answers userId token =>
      obtain ⟨r, config, rfl⟩ := confirmGroup_eq_ok hok
      exact ⟨List.prefix_rfl, List.prefix_rfl⟩
    | configure config =>
      rw [← Except.ok.inj hok]
      exact ⟨List.prefix_rfl, List.prefix_rfl⟩
    | setOutbox outbox =>
      rw [← Except.ok.inj hok]
      exact ⟨List.prefix_rfl, List.prefix_rfl⟩
  · exact .refl db

/-! ## The migration -/

/-- The branch raises before it writes. -/
theorem step_of_acceptedMigration (hash : String → String) {call : LinkageCall} {chatId migration : ℤ}
    (h : AcceptedMigration db call chatId migration) :
    linkageStep hash db call = db ∧ db.config.adminGroupId = some chatId := by
  obtain ⟨answers, body, updateId, m, chat, rfl, hid, hbound, hnew, hm, rfl, hmigration, hclient, hchat, hsame, htype,
    hname⟩ := h
  have hgroup : db.config.adminGroupId = some m.chatId := by
    unfold migrationOf at hmigration
    split at hmigration
    · split at hmigration
      · assumption
      · cases hmigration
    · cases hmigration
  have hraises : processUpdate hash db answers body = .error .typeError := by
    have hmigration' : migrationOf { db with updates := db.updates ++ [updateId] } m = some migration := hmigration
    have hcall : callChat answers migration = .ok chat := by rw [callChat, hchat]
    simp only [processUpdate, hid, if_neg (not_le.2 hbound), if_neg hnew, hm, hmigration', migrate, hclient, hcall, bind,
      Except.bind, hsame, htype, hname, and_self, if_true]
  refine ⟨?_, hgroup⟩
  simp only [linkageStep, LinkageCall.run, hraises]

theorem follows_iff {call : LinkageCall} : Follows hash db call ↔ StaysPut db call := by
  constructor
  · intro h chatId migration haccepted
    obtain ⟨hstep, hgroup⟩ := step_of_acceptedMigration hash haccepted
    have hmoved := (h chatId migration haccepted).1
    rw [hstep, hgroup] at hmoved
    exact (Option.some.inj hmoved).symm
  · intro h chatId migration haccepted
    obtain ⟨hstep, hgroup⟩ := step_of_acceptedMigration hash haccepted
    obtain rfl := h chatId migration haccepted
    rw [hstep]
    refine ⟨hgroup, fun i row hrow haddressed => ⟨row, hrow, ?_⟩⟩
    simp only [OutboxRow.addressed, Bool.and_eq_true, beq_iff_eq] at haddressed
    exact haddressed.1.2

end

theorem linkageSound_run (config : TelegramConfig) (calls : List LinkageCall) :
    LinkageSound (run (linkageStep hash) (unlinked config) calls) :=
  run_invariant LinkageSound (fun _ call h => h.step call) calls (linkageSound_unlinked config)

/-- **Telegram linkage.** Every run keeps the links, the receipts and the challenges in order; the migration of the
admin group is followed exactly in the runs where no accepted migration leads to another id. -/
theorem telegram_linkage_iff (config : TelegramConfig) (calls : List LinkageCall) :
    (Linked (run (linkageStep hash) (unlinked config) calls) ∧
      Meets (linkageStep hash) (fun db call => LinksKept db (linkageStep hash db call)) (unlinked config) calls ∧
      Meets (linkageStep hash) (Follows hash) (unlinked config) calls) ↔
    Meets (linkageStep hash) StaysPut (unlinked config) calls := by
  constructor
  · rintro ⟨-, -, hfollows⟩
    exact meets_of_invariant (fun _ => True) (fun _ _ _ _ => trivial) (fun _ _ _ h => follows_iff.1 h) trivial hfollows
  · intro hstays
    refine ⟨(linkageSound_run config calls).linked, meets_of_forall_mem fun db call _ => linksKept_step db call, ?_⟩
    exact meets_of_invariant (fun _ => True) (fun _ _ _ _ => trivial) (fun _ _ _ h => follows_iff.2 h) trivial hstays

/-- Telegram announces that the admin group -100 is now the supergroup -1001, and confirms it when asked. -/
def adminConfig : TelegramConfig := ⟨true, "12345:token", some 7, true, some (-100)⟩

def groupAnswers : Answers :=
  ⟨0, fun _ => true, true, fun id => some ⟨id, "supergroup", ""⟩, fun _ _ => none, fun _ => true⟩

def migrationUpdate : Entries :=
  [("update_id", .int 1),
    ("message", .dict [("chat", .dict [("id", .int (-100))]), ("from", .dict [("id", .int 5)]),
      ("migrate_to_chat_id", .int (-1001))])]

theorem migration_not_followed :
    ¬∀ (config : TelegramConfig) (calls : List LinkageCall),
      Linked (run (linkageStep id) (unlinked config) calls) ∧
        Meets (linkageStep id) (fun db call => LinksKept db (linkageStep id db call)) (unlinked config) calls ∧
        Meets (linkageStep id) (Follows id) (unlinked config) calls := by
  intro h
  have hfollows := (h adminConfig [.processUpdate groupAnswers migrationUpdate]).2.2.1
  have haccepted : AcceptedMigration (unlinked adminConfig) (.processUpdate groupAnswers migrationUpdate) (-100) (-1001) :=
    ⟨groupAnswers, migrationUpdate, 1, _, _, rfl, rfl, by decide, by simp [unlinked], rfl, rfl, rfl, rfl, rfl, rfl, rfl, rfl⟩
  have hmoved := (hfollows (-100) (-1001) haccepted).1
  rw [(step_of_acceptedMigration id haccepted).1] at hmoved
  exact absurd hmoved (by decide)

end LcsSystem.Telegram
