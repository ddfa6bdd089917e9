import LcsSystem.Core.Validation
import LcsSystem.Lib.Table
import LcsSystem.Lib.Transition

/-!
# Linking Telegram users and the admin group

`create_pairing`, `process_update` and `confirm_group` (`src/backend/app/modules/telegram/service.py:142-236`) over the
tables of `models.py`. A call runs in one transaction: it commits, or it raises and leaves the database as it was.

The key of a pairing in its table numbers the challenges and is no column; the column it is found by is `tokenHash`.
Names that are only displayed are left out.

| here                     | there                                                              |
|--------------------------|--------------------------------------------------------------------|
| `Value`                  | what `json.loads` makes of the body; an `int` is no `float`        |
| `Answers`                | what Telegram answers; `none` is a `TelegramError`                 |
| `TelegramFailure`        | the exceptions                                                     |
| `LinkageEvent`           | what took effect, kept beside the tables                           |

`process_update(session, update)` binds `update` to the body, so in its migration branch the statement
`update(NotificationOutbox)` calls a `dict`: `TelegramFailure.typeError`.
-/

namespace LcsSystem.Telegram
open Relational History

inductive Value
  | null
  | bool (b : Bool)
  | int (n : ℤ)
  | float (x : ℚ)
  | text (s : String)
  | list (items : List Value)
  | dict (entries : List (String × Value))

abbrev Entries := List (String × Value)

namespace Value

def truthy : Value → Bool
  | .null => false
  | .bool b => b
  | .int n => n ≠ 0
  | .float x => x ≠ 0
  | .text s => s ≠ ""
  | .list items => !items.isEmpty
  | .dict entries => !entries.isEmpty

/-- `type(value) is int`. -/
def int? : Value → Option ℤ
  | .int n => some n
  | _ => none

def text? : Value → Option String
  | .text s => some s
  | _ => none

end Value

/-- `entries.get(key)`. -/
def getEntry (entries : Entries) (key : String) : Value := (entries.lookup key).getD .null

/-- `entries.get(key) or {}`, where it is a dict. -/
def dictOrEmpty (entries : Entries) (key : String) : Option Entries :=
  match getEntry entries key with
  | .dict d => some d
  | v => if v.truthy = true then none else some []

/-! ## The database -/

structure TelegramConfig where
  enabled : Bool
  botToken : String
  botId : Option ℤ
  /-- `connectionStatus == "connected"`. -/
  connected : Bool
  adminGroupId : Option ℤ
  deriving DecidableEq

inductive PairingKind
  | privateChat | group
  deriving DecidableEq

structure TelegramPairing where
  tokenHash : String
  userId : ℕ
  kind : PairingKind
  botId : ℤ
  expiresAt : ℕ
  usedAt : Option ℕ := none
  candidateId : Option ℤ := none
  deriving DecidableEq

structure TelegramLink where
  userId : ℕ
  telegramUserId : ℤ
  botId : ℤ
  chatId : ℤ
  deriving DecidableEq

inductive RowStatus
  | pending | processing | sent | failed | cancelled
  deriving DecidableEq

/-- The columns of an outbox row that these functions write or select by. -/
structure OutboxRow where
  toAdmin : Bool
  destinationReference : ℤ
  status : RowStatus
  deriving DecidableEq

inductive LinkageEvent
  | issued (challenge : ℕ) (kind : PairingKind) (userId : ℕ) (botId : ℤ) (expiresAt : ℕ)
  | linked (updateId : ℕ) (challenge userId : ℕ) (telegramUserId botId : ℤ) (time : ℕ)
  | nominated (updateId : ℕ) (challenge : ℕ) (chatId botId : ℤ) (time : ℕ)
  deriving DecidableEq

structure TelegramDb where
  config : TelegramConfig
  pairings : Table TelegramPairing
  links : List TelegramLink
  updates : List ℕ
  outbox : List OutboxRow
  log : List LinkageEvent

inductive TelegramFailure
  | validation (message : String)
  | telegram (code : String)
  | integrity
  | dataError
  | typeError
  deriving DecidableEq

structure ChatInfo where
  id : ℤ
  type : String
  username : String := ""
  deriving DecidableEq

/-- What a call reads beside these tables: the clock, the users that are ACTIVE, and Telegram. -/
structure Answers where
  now : ℕ
  active : ℕ → Bool
  /-- `TelegramClient` accepts the form of the token. -/
  tokenAccepted : Bool
  getChat : ℤ → Option ChatInfo
  /-- `status` of `getChatMember`. -/
  memberStatus : ℤ → ℤ → Option String
  sendMessage : ℤ → Bool

variable (hash : String → String)

/-! ## `create_pairing` -/

/-- Ten minutes. -/
def pairingLifetime : ℕ := 600000000

def findPairing (db : TelegramDb) (tokenHash : String) : Option (ℕ × TelegramPairing) :=
  db.pairings.rows.find? fun r => r.2.tokenHash = tokenHash

def createPairing (db : TelegramDb) (now userId : ℕ) (kind : PairingKind) (token : String) :
    Except TelegramFailure TelegramDb :=
  match db.config.botId with
  | none => .error (.validation "Verify the bot connection first.")
  | some botId =>
    if botId = 0 ∨ db.config.connected = false then .error (.validation "Verify the bot connection first.")
    else
      let pairings := db.pairings.erase fun _ p => p.userId == userId && p.kind == kind
      if pairings.values.any (fun p => p.tokenHash = hash token) = true then .error .integrity
      else .ok { db with
        pairings := pairings.insert ⟨hash token, userId, kind, botId, now + pairingLifetime, none, none⟩
        log := db.log ++ [.issued pairings.nextId kind userId botId (now + pairingLifetime)] }

/-! ## `process_update` -/

/-- The checks of the update id, before anything is read. -/
def updateIdOf (body : Entries) : Option ℕ :=
  match (getEntry body "update_id").int? with
  | some n => if n < 0 then none else some n.toNat
  | none => none

/-- What a message needs for more than its receipt. -/
structure Message where
  entries : Entries
  chat : Entries
  chatId : ℤ
  senderId : ℤ

def messageOf (body : Entries) : Option Message := do
  let entries ← dictOrEmpty body "message"
  let chat ← dictOrEmpty entries "chat"
  let sender ← dictOrEmpty entries "from"
  let chatId ← (getEntry chat "id").int?
  let senderId ← (getEntry sender "id").int?
  if 2 ^ 53 ≤ |chatId| ∨ senderId ≤ 0 ∨ (getEntry sender "is_bot").truthy = true then none
  else some ⟨entries, chat, chatId, senderId⟩

/-- `str.split()`. -/
def splitWords : List Char → List (List Char)
  | [] => []
  | c :: cs =>
    if isSpace c = true then splitWords cs
    else
      match cs with
      | [] => [[c]]
      | d :: _ => if isSpace d = true then [c] :: splitWords cs
        else
          match splitWords cs with
          | w :: ws => (c :: w) :: ws
          | [] => [[c]]

/-- The command without the name of the bot, and its argument. -/
def commandOf (entries : Entries) : Option (String × String) :=
  match (entries.lookup "text").getD (.text "") with
  | .text text =>
    if 200 < text.length then none
    else
      match splitWords text.toList with
      | [head, argument] =>
        let command := String.ofList (head.takeWhile (· ≠ '@'))
        if (command = "/start" ∨ command = "/lcs_pair") ∧ argument.length ≤ 64 then some (command, String.ofList argument)
        else none
      | _ => none
  | _ => none

/-- `client(value)`. -/
def clientOf (config : TelegramConfig) (answers : Answers) : Except TelegramFailure Unit :=
  if config.enabled = false ∨ config.botToken = "" then
    .error (.validation "Telegram is disabled or has no bot token.")
  else if answers.tokenAccepted = true then .ok () else .error (.telegram "invalid_bot_token")

def callChat (answers : Answers) (chatId : ℤ) : Except TelegramFailure ChatInfo :=
  match answers.getChat chatId with
  | some chat => .ok chat
  | none => .error (.telegram "telegram_unavailable")

/-- The migration branch. -/
def migrate (db : TelegramDb) (answers : Answers) (migration : ℤ) : Except TelegramFailure TelegramDb := do
  clientOf db.config answers
  let migrated ← callChat answers migration
  if migrated.id = migration ∧ migrated.type = "supergroup" ∧ migrated.username = "" then .error .typeError
  else .ok db

/-- A private `/start` of the challenge `r`. -/
def pairPrivate (db : TelegramDb) (answers : Answers) (updateId : ℕ) (m : Message) (r : ℕ × TelegramPairing)
    (botId : ℤ) : TelegramDb :=
  if (getEntry m.chat "type").text? ≠ some "private" ∨ m.chatId ≠ m.senderId then db
  else if db.links.any (fun l => l.userId == r.2.userId) = true then db
  else if db.links.any (fun l => l.telegramUserId == m.senderId) = true then db
  else { db with
    links := db.links ++ [⟨r.2.userId, m.senderId, botId, m.chatId⟩]
    outbox := db.outbox ++ [⟨false, m.chatId, .pending⟩]
    pairings := db.pairings.modify r.1 fun p => { p with usedAt := some answers.now }
    log := db.log ++ [.linked updateId r.1 r.2.userId m.senderId botId answers.now] }

/-- `/lcs_pair` in a group nominates it. -/
def pairGroup (db : TelegramDb) (answers : Answers) (updateId : ℕ) (m : Message) (r : ℕ × TelegramPairing) (botId : ℤ) :
    Except TelegramFailure TelegramDb := do
  clientOf db.config answers
  let actual ← callChat answers m.chatId
  match answers.memberStatus m.chatId m.senderId with
  | none => .error (.telegram "telegram_unavailable")
  | some status =>
    if actual.id ≠ m.chatId ∨ actual.username ≠ "" ∨ (status ≠ "creator" ∧ status ≠ "administrator") then .ok db
    else if answers.sendMessage m.chatId = false then .error (.telegram "telegram_unavailable")
    else .ok { db with
      pairings := db.pairings.modify r.1 fun p => { p with candidateId := some m.chatId, usedAt := some answers.now }
      log := db.log ++ [.nominated updateId r.1 m.chatId botId answers.now] }

/-- The challenge of the command, where it is unused, in time and for the configured bot. -/
def openPairing (db : TelegramDb) (answers : Answers) (argument : String) : Option ((ℕ × TelegramPairing) × ℤ) :=
  match findPairing db (hash argument), db.config.botId with
  | some r, some botId =>
    if r.2.usedAt = none ∧ answers.now < r.2.expiresAt ∧ r.2.botId = botId ∧ db.config.enabled = true ∧
        answers.active r.2.userId = true then some (r, botId)
    else none
  | _, _ => none

/-- A message that is no migration. -/
def handleCommand (db : TelegramDb) (answers : Answers) (updateId : ℕ) (m : Message) :
    Except TelegramFailure TelegramDb :=
  match commandOf m.entries with
  | none => .ok db
  | some (command, argument) =>
    match openPairing hash db answers argument with
    | none => .ok db
    | some (r, botId) =>
      match r.2.kind with
      | .privateChat => .ok (if command = "/start" then pairPrivate db answers updateId m r botId else db)
      | .group =>
        if command = "/lcs_pair" then
          match getEntry m.chat "type" with
          | .text type => if type = "group" ∨ type = "supergroup" then pairGroup db answers updateId m r botId else .ok db
          -- a list or a dict is no member of a set, it cannot be hashed
          | .list _ | .dict _ => .error .typeError
          | _ => .ok db
        else .ok db

/-- The migration of the admin group that a message announces. -/
def migrationOf (db : TelegramDb) (m : Message) : Option ℤ :=
  match (getEntry m.entries "migrate_to_chat_id").int? with
  | some migration => if db.config.adminGroupId = some m.chatId then some migration else none
  | none => none

def processUpdate (db : TelegramDb) (answers : Answers) (body : Entries) : Except TelegramFailure TelegramDb :=
  match updateIdOf body with
  | none => .error (.validation "Invalid update.")
  | some updateId =>
    if 2 ^ 63 ≤ updateId then .error .dataError
    else if updateId ∈ db.updates then .ok db
    else
      let db := { db with updates := db.updates ++ [updateId] }
      match messageOf body with
      | none => .ok db
      | some m =>
        match migrationOf db m with
        | some migration => migrate db answers migration
        | none => handleCommand hash db answers updateId m

/-! ## `confirm_group` -/

def confirmGroup (db : TelegramDb) (answers : Answers) (userId : ℕ) (token : String) :
    Except TelegramFailure TelegramDb :=
  match findPairing db (hash token) with
  | none => .error (.validation "No eligible verified group candidate.")
  | some r =>
    match r.2.candidateId with
    | none => .error (.validation "No eligible verified group candidate.")
    | some candidate =>
      if r.2.userId ≠ userId ∨ r.2.kind ≠ .group ∨ candidate = 0 ∨ r.2.expiresAt ≤ answers.now ∨
          db.config.botId ≠ some r.2.botId then .error (.validation "No eligible verified group candidate.")
      else do
        clientOf db.config answers
        let actual ← callChat answers candidate
        if actual.username ≠ "" ∨ (actual.type ≠ "group" ∧ actual.type ≠ "supergroup") then
          .error (.validation "The admin destination must be a private group.")
        else .ok { db with
          config := { db.config with adminGroupId := some candidate }
          pairings := db.pairings.erase fun id _ => id == r.1 }

/-! ## Runs -/

inductive LinkageCall
  | createPairing (now userId : ℕ) (kind : PairingKind) (token : String)
  | processUpdate (answers : Answers) (body : Entries)
  | confirmGroup (answers : Answers) (userId : ℕ) (token : String)
  /-- The settings are saved or the connection is tested. -/
  | configure (config : TelegramConfig)
  /-- Another module queues a notification, or the worker changes one. -/
  | setOutbox (outbox : List OutboxRow)

def LinkageCall.run (db : TelegramDb) : LinkageCall → Except TelegramFailure TelegramDb
  | .createPairing now userId kind token => Telegram.createPairing hash db now userId kind token
  | .processUpdate answers body => Telegram.processUpdate hash db answers body
  | .confirmGroup answers userId token => Telegram.confirmGroup hash db answers userId token
  | .configure config => .ok { db with config := config }
  | .setOutbox outbox => .ok { db with outbox := outbox }

/-- A call that raises is rolled back. -/
def linkageStep (db : TelegramDb) (call : LinkageCall) : TelegramDb :=
  match call.run hash db with
  | .ok db' => db'
  | .error _ => db

/-- Before the first pairing. -/
def unlinked (config : TelegramConfig) : TelegramDb := ⟨config, .empty, [], [], [], []⟩

/-! ## What is promised -/

namespace LinkageEvent

/-- The update that took effect. -/
def updateId? : LinkageEvent → Option ℕ
  | .linked updateId .. | .nominated updateId .. => some updateId
  | .issued .. => none

/-- The challenge that was taken up. -/
def challenge? : LinkageEvent → Option ℕ
  | .linked _ challenge .. | .nominated _ challenge .. => some challenge
  | .issued .. => none

end LinkageEvent

/-- A challenge is taken up before its expiry, and for the bot, the user and the kind it was issued for. -/
def InTime (log : List LinkageEvent) : LinkageEvent → Prop
  | .issued .. => True
  | .linked _ challenge userId _ botId time =>
    ∃ expiresAt, .issued challenge .privateChat userId botId expiresAt ∈ log ∧ time < expiresAt
  | .nominated _ challenge _ botId time =>
    ∃ userId expiresAt, .issued challenge .group userId botId expiresAt ∈ log ∧ time < expiresAt

structure Linked (db : TelegramDb) : Prop where
  updatesOnce : (db.log.filterMap LinkageEvent.updateId?).Nodup
  challengesOnce : (db.log.filterMap LinkageEvent.challenge?).Nodup
  inTime : Explained InTime db.log
  oneUser : (db.links.map (·.userId)).Nodup
  oneTelegramUser : (db.links.map (·.telegramUserId)).Nodup

/-- The links there were are still there, and everything that took effect still stands in the history. -/
structure LinksKept (db db' : TelegramDb) : Prop where
  links : db.links <+: db'.links
  log : db.log <+: db'.log

/-- The call handles a new update that announces the migration of the current admin group, and Telegram confirms it. -/
def AcceptedMigration (db : TelegramDb) (call : LinkageCall) (chatId migration : ℤ) : Prop :=
  ∃ answers body updateId m chat, call = .processUpdate answers body ∧ updateIdOf body = some updateId ∧
    updateId < 2 ^ 63 ∧ updateId ∉ db.updates ∧ messageOf body = some m ∧ m.chatId = chatId ∧
    migrationOf db m = some migration ∧ clientOf db.config answers = .ok () ∧ answers.getChat migration = some chat ∧
    chat.id = migration ∧ chat.type = "supergroup" ∧ chat.username = ""

/-- A waiting or failed message to the admin group `chatId`. -/
def OutboxRow.addressed (row : OutboxRow) (chatId : ℤ) : Bool :=
  row.toAdmin && row.destinationReference == chatId && (row.status == .pending || row.status == .failed)

/-- After an accepted migration the group and the messages to it are at the new id. -/
def Follows (db : TelegramDb) (call : LinkageCall) : Prop :=
  ∀ chatId migration, AcceptedMigration db call chatId migration →
    (linkageStep hash db call).config.adminGroupId = some migration ∧
    ∀ (i : ℕ) (row : OutboxRow), db.outbox[i]? = some row → row.addressed chatId = true →
      ∃ row' : OutboxRow, (linkageStep hash db call).outbox[i]? = some row' ∧ row'.destinationReference = migration

/-- No accepted migration leads to another id. -/
def StaysPut (db : TelegramDb) (call : LinkageCall) : Prop :=
  ∀ chatId migration, AcceptedMigration db call chatId migration → migration = chatId

end LcsSystem.Telegram
