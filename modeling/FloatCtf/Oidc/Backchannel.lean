import FloatCtf.Oidc.Accounts
import FloatCtf.Process.Join

/-!
# Back-channel logout

A global logout revokes the sessions of its accounts, writes a delivery for every application that
has received a token under one of them and can be notified, and tries the deliveries at once.  What
is left pending is claimed under a lease and tried again by a worker.

The result of a delivery is written by the identifier of its row, over whatever the row has become
since it was read.
-/

namespace FloatCtf.Oidc.Accounts

open Process

/-- The attempts of a delivery, the first one included. -/
def maxAttempts : Nat := 6

/-- The waits between the attempts. -/
def backoffSecs : List Int := [30, 120, 600, 1800, 7200]

/-- How long a claimed delivery is left to its worker. -/
def leaseSecs : Int := 120

/-! ## The outbox -/

/-- The client is active and has an address for logouts. -/
def Client.notifiable (c : Client) : Bool := c.backchannelLogoutUri.isSome && c.active

/-- The applications that have received a token under the session. -/
def Db.boundClients (db : Db) (sessionId : Nat) : List Client :=
  (db.sessionClients.filter (·.sessionId = sessionId)).filterMap fun b =>
    db.clients.find? (·.id = b.clientId)

/-- The row gets its identifier and its times when it is written. -/
def insertDelivery (row : Delivery) : AccountM Delivery :=
  .exec (.insertDelivery row.clientId row.sid) .database fun db =>
    let row :=
      { row with id := db.nextDelivery, nextAttemptAt := db.now + leaseSecs, createdAt := db.now }
    .ok ({ db with
      deliveries := db.deliveries ++ [row]
      nextDelivery := db.nextDelivery + 1 }, row)

/-- A pending delivery that has not been tried. -/
def newDelivery (p : Provider) (batchId : Nat) (session : Session) (client : Client) : Delivery :=
  { id := 0, batchId, issuer := p.issuer
    clientId := client.id, userId := session.userId, sid := session.sid, status := .pending
    attempts := 0, nextAttemptAt := 0, lastError := none, lastHttpStatus := none, lastJti := none
    createdAt := 0, deliveredAt := none }

/-- A delivery for each client of a session. -/
def enqueueClients (p : Provider) (batchId : Nat) (session : Session) :
    List Client → AccountM (List Delivery)
  | [] => pure []
  | client :: clients =>
    if client.notifiable then do
      let row ← insertDelivery (newDelivery p batchId session client)
      let rows ← enqueueClients p batchId session clients
      pure (row :: rows)
    else enqueueClients p batchId session clients

/-- The deliveries of several sessions. -/
def enqueue (p : Provider) (batchId : Nat) : List Session → AccountM (List Delivery)
  | [] => pure []
  | session :: sessions => do
    let clients ← .query (.bindings session) .database fun db => db.boundClients session.id
    let rows ← enqueueClients p batchId session clients
    let more ← enqueue p batchId sessions
    pure (rows ++ more)

/-! ## Deliveries -/

/-- Changes one delivery. -/
def editDelivery (id : Nat) (f : Delivery → Delivery) (db : Db) : Db :=
  { db with deliveries := db.deliveries.map fun d => if d.id = id then f d else d }

/-- Writes the end of an attempt. -/
def mark (row : Delivery) (status : DeliveryStatus) (httpStatus : Option Nat)
    (error jti : Option String) : AccountM Unit :=
  write (.mark row) fun db =>
    editDelivery row.id (fun d =>
      { d with
        status
        attempts := row.attempts + 1
        lastError := error
        lastHttpStatus := httpStatus
        lastJti := jti
        deliveredAt := if status = .delivered then some db.now else d.deliveredAt }) db

/-- The wait after the attempt with this number. -/
def backoff (attempts : Nat) : Int :=
  (backoffSecs[min (attempts - 1) (backoffSecs.length - 1)]?).getD 0

/-- Puts the delivery off, or gives it up after the last attempt. -/
def retryOrFail (row : Delivery) (httpStatus : Option Nat) (reason : String)
    (jti : Option String) : AccountM Unit :=
  if maxAttempts ≤ row.attempts + 1 then mark row .failed httpStatus (some reason) jti
  else
    write (.retry row) fun db =>
      editDelivery row.id (fun d =>
        { d with
          attempts := row.attempts + 1
          nextAttemptAt := db.now + backoff (row.attempts + 1)
          lastError := some reason
          lastHttpStatus := httpStatus
          lastJti := jti }) db

/-- The request to the application; the database has no part in it, and one that never comes back
is given up with its delivery. -/
def post (row : Delivery) (a : Attempt) : AccountM PostResult :=
  .query (.post row a) .database fun _ => a.result

/-- What becomes of the answer of a client. -/
def handleResult (row : Delivery) (jti : String) : PostResult → AccountM Unit
  | .signingFailed => retryOrFail row none "签名失败" none
  | .refused reason => mark row .failed none (some reason) (some jti)
  | .transient reason => retryOrFail row none reason (some jti)
  | .status code =>
    if 200 ≤ code ∧ code < 300 then mark row .delivered (some code) none (some jti)
    else if code = 400 then
      mark row .failed (some 400) (some "应用拒绝了退出通知（HTTP 400）") (some jti)
    else retryOrFail row (some code) ("HTTP " ++ toString code) (some jti)

/-- One attempt of a delivery. -/
def deliverOne (row : Delivery) (a : Attempt) : AccountM Unit := do
  let client ← .query (.findClient row) .database fun db => db.clients.find? (·.id = row.clientId)
  match client with
  | none => mark row .failed none (some "应用已删除") none
  | some client =>
    match client.backchannelLogoutUri with
    | none => mark row .failed none (some "应用已移除接收地址") none
    | some _ => do
      let result ← post row a
      handleResult row a.jti result

/-- The deliveries of a batch run side by side, and the one that takes too long is given up. -/
def deliverBatch (attempt : Nat → Attempt) (turns : List Turn) (rows : List Delivery) :
    AccountM Unit :=
  joinAll turns (rows.map fun row => deliverOne row (attempt row.id))

/-- The rows that are due; rows that another worker is claiming are skipped. -/
def Db.due (db : Db) (issuer : String) (limit : Nat) (skip : List Nat) : List Delivery :=
  ((db.deliveries.filter fun d =>
    d.status = .pending && d.issuer = issuer && decide (d.nextAttemptAt ≤ db.now) &&
      d.id ∉ skip).insertionSort fun a b => a.nextAttemptAt ≤ b.nextAttemptAt).take limit

/-- The delivery as its worker has claimed it. -/
def Delivery.leased (d : Delivery) (now : Int) : Delivery :=
  { d with nextAttemptAt := now + leaseSecs }

/-- Claims the deliveries that are due. -/
def claimDue (issuer : String) (limit : Nat) (skip : List Nat) : AccountM (List Delivery) :=
  .exec .claim .database fun db =>
    let rows := db.due issuer limit skip
    .ok ({ db with
      deliveries := db.deliveries.map fun d => if d ∈ rows then d.leased db.now else d },
      rows.map (·.leased db.now))

/-- Claims what is due and attempts it. -/
def retryDue (p : Provider) (skip : List Nat) (attempt : Nat → Attempt) (turns : List Turn) :
    AccountM Unit := do
  let rows ← claimDue p.issuer 20 skip
  deliverBatch attempt turns rows

/-- The session has given a token to the application. -/
def recordSessionClient (sessionId clientId : Nat) : AccountM Unit :=
  write (.record sessionId clientId) fun db =>
    if (⟨sessionId, clientId⟩ : SessionClient) ∈ db.sessionClients then db
    else { db with sessionClients := db.sessionClients ++ [⟨sessionId, clientId⟩] }

/-- The applications after edits and removals; the bindings and the deliveries of an application go
with it. -/
def Db.withClients (db : Db) (clients : List Client) : Db :=
  { db with
    clients
    sessionClients := db.sessionClients.filter (·.clientId ∈ clients.map (·.id))
    deliveries := db.deliveries.filter (·.clientId ∈ clients.map (·.id)) }

/-! ## Global logout -/

/-- Signs the accounts out one after the other. -/
def signOutAccounts : List Session → Browser → AccountM Browser
  | [], b => pure b
  | s :: ss, b => do
    let b ← signOutAccount b s.id .globalLogout
    signOutAccounts ss b

/-- Without containers the one session goes. -/
def revokeSingle (b : Browser) (targets : List Session) : AccountM Browser := do
  revokeSessions b (targets.map (·.id)) .globalLogout none
  pure { b with accounts := b.accounts.filter fun s => s.id ∉ targets.map (·.id) }

/-- Signs out the sessions of a logout in this browser. -/
def revokeForLogout (p : Provider) (b : Browser) (targets : List Session) : AccountM Browser :=
  if p.multiAccount then
    if targets ≠ [] ∧ targets.length = b.accounts.length then signOutBrowser b .globalLogout
    else signOutAccounts targets b
  else revokeSingle b targets

/-- What a logout draws, and how its attempts interleave. -/
structure LogoutDraws where
  batchId : Nat
  attempt : Nat → Attempt
  turns : List Turn

/-- The applications that are shown to the user come from a read of their own. -/
def globalLogout (p : Provider) (draws : LogoutDraws) (b : Browser) (targets : List Session) :
    AccountM Browser := do
  let _ ← select fun db => targets.flatMap fun s => db.boundClients s.id
  let b ← revokeForLogout p b targets
  let rows ← enqueue p draws.batchId targets
  deliverBatch draws.attempt draws.turns rows
  pure b

end FloatCtf.Oidc.Accounts
