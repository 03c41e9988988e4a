import DeviceTrust.Proofs.Provisioning.CallOrder
import DeviceTrust.Proofs.Provisioning.Token

/-!
# Credentials are read back as they were written

A client builds its user name and its password in two regions of the working buffer, and connects
with what it reads back from there. This comes to the texts themselves, whatever the buffer held
before: neither of them is cut off, and the second one does not overwrite the first. If one of them
does not fit, the registration ends without a call.

Results:
* `SymmetricKey.password_eq`, `SymmetricKey.written_writePassword`: the token of a key.
* `Host.prepareConnect_fst`: what a client connects with, from a buffer of the required size.
* `Run.connections_eq`: a client that can build its credentials connects once with them.
* `Run.register_of_connectInfo_error`: a client that cannot build them fails without a call.
-/

namespace DeviceTrust.Provisioning

/-! ## Writing and reading a text -/

/-- The text, if its UTF-8 form has at most `limit` bytes. -/
def boundedText (limit : Nat) (text : String) : Except Failure String :=
  if (utf8 text).length ≤ limit then .ok text else .error .outOfMemory

theorem boundedText_of_le {limit : Nat} {text : String} (h : (utf8 text).length ≤ limit) :
    boundedText limit text = .ok text :=
  if_pos h

theorem boundedText_of_lt {limit : Nat} {text : String} (h : limit < (utf8 text).length) :
    boundedText limit text = .error .outOfMemory :=
  if_neg (Nat.not_le.mpr h)

theorem boundedText_eq_ok_iff {limit : Nat} {text text' : String} :
    boundedText limit text = .ok text' ↔ text' = text ∧ (utf8 text).length ≤ limit := by
  rw [boundedText]
  split
  next h => simp [h, eq_comm]
  next h => simp [h]

/-- What an operation leaves that writes a text into a buffer and gives its length, if there is a text
to write. -/
inductive Written {ε : Type} (buffer : Bytes) : Except ε String → Except ε Nat × Bytes → Prop where
  | text {text : String} (h : (utf8 text).length ≤ buffer.length) :
      Written buffer (.ok text) (.ok (utf8 text).length, Bytes.fill buffer (utf8 text))
  | nothing (e : ε) (left : Bytes) : Written buffer (.error e) (.error e, left)

section Writing

variable {ε : Type} {buffer : Bytes} {text : String} {result : Except ε Nat × Bytes}

theorem written_writeText (text : String) (buffer : Bytes) :
    Written buffer (boundedText buffer.length text) (writeText (utf8 text) buffer) := by
  rw [boundedText, writeText]
  split
  next h => exact .text h
  next => exact .nothing _ _

theorem Written.mapError {ε' : Type} {text : Except ε String} (h : Written buffer text result)
    (f : ε → ε') : Written buffer (text.mapError f) (result.1.mapError f, result.2) := by
  cases h with
  | text h => exact .text h
  | nothing e left => exact .nothing (f e) left

end Writing

/-! ## Tokens -/

namespace SymmetricKey

variable (key : SymmetricKey Id) (idScope registrationId : String) (expiry : UInt64)

/-- The token of a device, if a tag can be computed for it and it is not too long. -/
def token : Except Error String :=
  match (key.hmac key.secret (utf8 (signedText idScope registrationId expiry))).run with
  | .error e => .error e
  | .ok tag =>
    (boundedText passwordMax (tokenText idScope registrationId expiry tag)).mapError .failure

theorem length_token {text : String} (h : key.token idScope registrationId expiry = .ok text) :
    (utf8 text).length ≤ passwordMax := by
  rw [token] at h
  split at h
  next => cases h
  next tag _ =>
    obtain ⟨rfl, hroom⟩ := boundedText_eq_ok_iff.mp (mapError_eq_ok_iff.mp h)
    exact hroom

theorem written_writePassword (buffer : Bytes) (hroom : buffer.length = passwordMax) :
    Written buffer (key.token idScope registrationId expiry)
      (key.writePassword idScope registrationId expiry buffer).run := by
  rw [writePassword_eq, Id.run_map, token]
  cases (key.hmac key.secret (utf8 (signedText idScope registrationId expiry))).run with
  | error e => exact .nothing e buffer
  | ok tag =>
    rw [← hroom]
    exact (written_writeText _ buffer).mapError _

/-- The token for a tag, if there is a tag and the token is not too long. -/
def boundedToken (idScope registrationId : String) (expiry : UInt64) :
    Except Error Bytes → Except Error String
  | .error e => .error e
  | .ok tag =>
    (boundedText passwordMax (tokenText idScope registrationId expiry tag)).mapError .failure

/-- In any monad a token is read back from its buffer as it was written. -/
theorem password_eq {m : Type → Type} [Monad m] [LawfulMonad m] (key : SymmetricKey m)
    (idScope registrationId : String) (expiry : UInt64) :
    key.password idScope registrationId expiry =
      boundedToken idScope registrationId expiry <$>
        key.hmac key.secret (utf8 (signedText idScope registrationId expiry)) := by
  rw [password, writePassword_eq, bind_map_left, map_eq_pure_bind]
  apply bind_congr
  intro result
  cases result with
  | error e => rfl
  | ok tag =>
    have hwritten := (written_writeText (tokenText idScope registrationId expiry tag)
      (List.replicate passwordMax 0)).mapError Error.failure
    rw [List.length_replicate] at hwritten
    simp only [writeToken, boundedToken]
    generalize Except.mapError Error.failure (boundedText passwordMax _) = token at hwritten ⊢
    generalize Except.mapError Error.failure (writeText _ _).1 = written at hwritten ⊢
    generalize (writeText _ _).2 = left at hwritten ⊢
    cases hwritten with
    | nothing => rfl
    | text h => simp only [Bytes.take_fill h, text?_utf8]

theorem run_password :
    (key.password idScope registrationId expiry).run = key.token idScope registrationId expiry := by
  rw [password_eq, Id.run_map]
  rfl

end SymmetricKey

/-! ## The credentials of a client -/

/-- A connection of a device that presents a user name and a password. -/
def ConnectInfo.presenting (registrationId username : String) (password : Option String) :
    ConnectInfo where
  clientId := registrationId
  username := username
  password := password
  cleanSession := true
  keepAlive := keepAliveSeconds * 1000
  connackTimeout := Provisioning.connackTimeout

namespace Client

/-- The password of a client with a key, at a given time. -/
def password (client : Client) (time : UInt64) : Except Failure (Option String) :=
  match client.key with
  | none => .ok none
  | some key =>
    match key.token client.idScope client.registrationId (time + tokenLifetime) with
    | .error _ => .error .tokenGenerationFailed
    | .ok token => .ok (some token)

/-- What a client connects with at a given time. -/
def connectInfo (client : Client) (time : UInt64) : Except Failure ConnectInfo := do
  let username ← boundedText userNameMax
    (userName client.idScope client.registrationId client.userAgent)
  let password ← client.password time
  return .presenting client.registrationId username password

theorem password_of_none {client : Client} (hkey : client.key = none) (time : UInt64) :
    client.password time = .ok none := by
  rw [password, hkey]

theorem password_of_some {client : Client} {key : SymmetricKey Id} (hkey : client.key = some key)
    (time : UInt64) : client.password time =
      match key.token client.idScope client.registrationId (time + tokenLifetime) with
      | .error _ => .error .tokenGenerationFailed
      | .ok token => .ok (some token) := by
  rw [password, hkey]

end Client

variable {σ : Type} {s : Session σ}

theorem userNameRegion_apart : userNameRegion.Apart passwordRegion := by
  decide

namespace Host

variable (host : Host σ)

theorem run_buildPassword_of_none (hkey : s.client.key = none) :
    host.buildPassword.run.run s = (.ok none, s) := by
  have hclient : Action.client.run.run s = (.ok s.client, s) := rfl
  rw [buildPassword, run_bind, hclient]
  simp only [hkey]
  rfl

/-- With a key, the password is written once the clock has been read. -/
theorem run_buildPassword_of_some {key : SymmetricKey Id} (hkey : s.client.key = some key)
    {written : Except Error Nat × Bytes}
    (h : (key.writePassword s.client.idScope s.client.registrationId
      ((host.now s.outside).1 + tokenLifetime) (passwordRegion.read s.client.buffer)).run = written) :
    host.buildPassword.run.run s =
      (match written.1 with
        | .ok length => .ok (some length)
        | .error _ => .error .tokenGenerationFailed,
      { client := { s.client with buffer := passwordRegion.write written.2 s.client.buffer }
        outside := (host.now s.outside).2 }) := by
  have hclient : Action.client.run.run s = (.ok s.client, s) := rfl
  have hclock : (Action.call host.now).run.run s =
      (.ok (host.now s.outside).1, { s with outside := (host.now s.outside).2 }) := rfl
  rw [buildPassword, run_bind, hclient]
  simp only [hkey]
  rw [run_bind, hclock]
  simp only
  rw [run_bind, run_within]
  simp only [h]
  cases written.1 with
  | error e =>
    rw [hkey]
    rfl
  | ok length =>
    rw [hkey]
    rfl

/-- What building the password comes to. If there is one, it can be read from its region, and
everything apart from it stays. -/
theorem run_buildPassword (hsize : minimumBufferSize ≤ s.client.buffer.length) :
    ∃ s', host.buildPassword.run.run s =
        ((s.client.password (host.now s.outside).1).map fun password =>
          password.map fun text => (utf8 text).length, s') ∧
      (∀ other : Region, other.Apart passwordRegion →
        other.read s'.client.buffer = other.read s.client.buffer) ∧
      ∀ text, s.client.password (host.now s.outside).1 = .ok (some text) →
        (passwordRegion.first (utf8 text).length).read s'.client.buffer = utf8 text := by
  cases hkey : s.client.key with
  | none =>
    rw [Client.password_of_none hkey]
    exact ⟨s, host.run_buildPassword_of_none hkey, fun _ _ => rfl, fun _ htext => by cases htext⟩
  | some key =>
    rw [Client.password_of_some hkey]
    have hfits : passwordRegion.Fits s.client.buffer := fits_of_size hsize (by decide)
    have hwritten := key.written_writePassword s.client.idScope s.client.registrationId
      ((host.now s.outside).1 + tokenLifetime) _ (Region.length_read hfits)
    generalize hresult : (key.writePassword s.client.idScope s.client.registrationId
      ((host.now s.outside).1 + tokenLifetime) (passwordRegion.read s.client.buffer)).run = result
      at hwritten
    generalize key.token s.client.idScope s.client.registrationId
      ((host.now s.outside).1 + tokenLifetime) = token at hwritten ⊢
    have hrun := host.run_buildPassword_of_some hkey hresult
    refine ⟨_, hrun.trans (congrArg (·, _) ?_), fun other hapart => ?_, ?_⟩
    · cases hwritten <;> rfl
    · exact (Region.confines_write hfits result.2).read_eq hapart
    · cases hwritten with
      | nothing => exact fun _ htext => by cases htext
      | text h =>
        rintro _ ⟨⟩
        rw [Region.length_read hfits] at h
        exact Region.read_first_write_fill hfits h

/-- What is connected with once both texts have been written, with their lengths. -/
def readConnectInfo (registrationId : String) (userNameLength : Nat)
    (passwordLength : Option Nat) : Action σ ConnectInfo := do
  let username ← Action.readText userNameRegion userNameLength
  let password ← match passwordLength with
    | none => pure none
    | some length => some <$> Action.readText passwordRegion length
  return .presenting registrationId username password

theorem run_readConnectInfo {registrationId username : String} {password : Option String}
    (husername : (userNameRegion.first (utf8 username).length).read s.client.buffer =
      utf8 username)
    (hpassword : ∀ text, password = some text →
      (passwordRegion.first (utf8 text).length).read s.client.buffer = utf8 text) :
    ((readConnectInfo registrationId (utf8 username).length
        (password.map fun text => (utf8 text).length)).run.run s).1 =
      .ok (.presenting registrationId username password) := by
  rw [readConnectInfo, run_readText_bind _ husername]
  cases password with
  | none => rfl
  | some text =>
    simp only [Option.map_some, map_eq_pure_bind, bind_assoc, pure_bind]
    rw [run_readText_bind _ (hpassword text rfl)]
    rfl

/-- Once the user name has been written, it is still there after the password has been. -/
theorem buildPassword_readConnectInfo_fst (hsize : minimumBufferSize ≤ s.client.buffer.length)
    {username : String}
    (husername : (userNameRegion.first (utf8 username).length).read s.client.buffer =
      utf8 username) :
    ((host.buildPassword >>=
        readConnectInfo s.client.registrationId (utf8 username).length).run.run s).1 =
      (s.client.password (host.now s.outside).1).map
        (.presenting s.client.registrationId username) := by
  obtain ⟨built, hbuild, hapart, hpassword⟩ := host.run_buildPassword hsize
  rw [← hapart _ (userNameRegion_apart.first _)] at husername
  rw [run_bind, hbuild]
  cases hok : s.client.password (host.now s.outside).1 with
  | error failure => rfl
  | ok password =>
    refine run_readConnectInfo husername fun text htext => hpassword text ?_
    rw [hok, htext]

/-- The user name is written first. -/
theorem run_prepareConnect (s : Session σ) : host.prepareConnect.run.run s =
    (Action.within userNameRegion
        (writeText (utf8 (userName s.client.idScope s.client.registrationId s.client.userAgent))) >>=
      fun written => ofExcept written >>= fun length =>
        host.buildPassword >>= readConnectInfo s.client.registrationId length).run.run s := by
  have hclient : Action.client.run.run s = (.ok s.client, s) := rfl
  rw [prepareConnect, run_bind, hclient]
  simp only [writeUserName_eq]
  rfl

/-- A user name that fits is followed by the password. -/
theorem run_prepareConnect_of_le (hsize : minimumBufferSize ≤ s.client.buffer.length) {name : String}
    (hname : userName s.client.idScope s.client.registrationId s.client.userAgent = name)
    (hroom : (utf8 name).length ≤ userNameMax) : host.prepareConnect.run.run s =
      (host.buildPassword >>= readConnectInfo s.client.registrationId (utf8 name).length).run.run
        (s.put userNameRegion (utf8 name)) := by
  have hregion : (userNameRegion.read s.client.buffer).length = userNameMax :=
    Region.length_read (fits_of_size hsize (by decide))
  rw [run_prepareConnect, hname, run_bind, run_within, writeText_of_le (hregion ▸ hroom)]
  rfl

/-- A user name that does not fit ends the action. -/
theorem run_prepareConnect_of_lt (hsize : minimumBufferSize ≤ s.client.buffer.length) {name : String}
    (hname : userName s.client.idScope s.client.registrationId s.client.userAgent = name)
    (hroom : userNameMax < (utf8 name).length) :
    host.prepareConnect.run.run s = (.error .outOfMemory, s.put userNameRegion (utf8 name)) := by
  have hregion : (userNameRegion.read s.client.buffer).length = userNameMax :=
    Region.length_read (fits_of_size hsize (by decide))
  rw [run_prepareConnect, hname, run_bind, run_within, writeText, hregion,
    if_neg (Nat.not_le.mpr hroom)]
  rfl

/-- What is connected with from a buffer of the required size: both texts are read back after both
have been written. -/
theorem prepareConnect_fst (hsize : minimumBufferSize ≤ s.client.buffer.length) :
    (host.prepareConnect.run.run s).1 = s.client.connectInfo (host.now s.outside).1 := by
  rw [Client.connectInfo]
  generalize hname : userName s.client.idScope s.client.registrationId s.client.userAgent = name
  by_cases hroom : (utf8 name).length ≤ userNameMax
  · have hsize' : minimumBufferSize ≤ (s.put userNameRegion (utf8 name)).client.buffer.length := by
      rwa [Session.length_put]
    have hfits : userNameRegion.Fits s.client.buffer := fits_of_size hsize (by decide)
    have hread := Region.read_first_write_fill hfits hroom
    rw [host.run_prepareConnect_of_le hsize hname hroom, boundedText_of_le hroom]
    exact host.buildPassword_readConnectInfo_fst hsize' hread
  · rw [host.run_prepareConnect_of_lt hsize hname (Nat.not_le.mp hroom),
      boundedText_of_lt (Nat.not_le.mp hroom)]
    rfl

end Host

/-! ## The registration that connects -/

/-- What is connected with. -/
@[simp] def Moment.connection? : Moment → Option ConnectInfo
  | .connect info _ => some info
  | _ => none

/-- The connections that are made, in order. -/
def connections (moments : List Moment) : List ConnectInfo :=
  moments.filterMap Moment.connection?

/-- Nothing is connected after a connection. -/
theorem InOrder.connections_eq_nil {log rest : List Moment} {info : ConnectInfo}
    {result : Except TransportError Unit} (h : InOrder (log ++ .connect info result :: rest)) :
    connections rest = [] := by
  refine List.filterMap_eq_nil_iff.mpr fun m hm => ?_
  cases m with
  | connect info' result' =>
    obtain ⟨before, after, rfl⟩ := List.append_of_mem hm
    obtain ⟨-, hnone⟩ := h (log ++ .connect info result :: before) (.connect info' result') after
      (by simp)
    have hself := hnone (.connect info result) (by simp)
    cases hself
  | _ => rfl

namespace Session

variable {host : Host σ} {info : ConnectInfo} {failure : Failure}

/-- How a workflow starts whose credentials come to `prepared`. -/
theorem prepareConnect_of_init (hstate : s.client.state = .init)
    (hsize : minimumBufferSize ≤ s.client.buffer.length) {prepared : Except Failure ConnectInfo}
    (h : s.client.connectInfo (host.now s.outside).1 = prepared) :
    s.start.client.state = .connect ∧ ∃ t, host.prepareConnect.run.run s.start = (prepared, t) := by
  rw [start, if_pos hstate]
  refine ⟨?_, _, Prod.ext ?_ rfl⟩
  · rw [settle, Client.settle_state, hstate]
    rfl
  · exact (host.prepareConnect_fst (s := s.settle .success) hsize).trans h

/-- The calls that the host gets in a registration. -/
theorem callLog_register (s : Session σ) (host : Host σ) (timeout limit : Nat) (hlimit : 0 < limit) :
    s.callLog host [.register timeout limit hlimit] =
      (s.registerMoments host timeout limit hlimit).filter Moment.isCall := by
  rw [callLog_eq, momentsAlong, momentsAlong, List.append_nil]
  rfl

/-- The first call of the first registration connects. -/
theorem callLog_of_connectInfo_ok (hstate : s.client.state = .init)
    (hsize : minimumBufferSize ≤ s.client.buffer.length)
    (h : s.client.connectInfo (host.now s.outside).1 = .ok info) (timeout limit : Nat)
    (hlimit : 0 < limit) :
    ∃ result rest, s.callLog host [.register timeout limit hlimit] = .connect info result :: rest := by
  obtain ⟨hconnect, t, hrun⟩ := prepareConnect_of_init hstate hsize h
  have hcall : s.start.actCall? host = some (.connect info (host.connect info t.outside).1) := by
    simp only [actCall?, hconnect, hrun]
  rw [callLog_register, registerMoments, runMoments, if_neg (by rw [hconnect]; decide), turnMoments,
    actMoments_eq, hcall]
  exact ⟨_, _, rfl⟩

/-- A client that cannot build its credentials makes no call and gives up at once. -/
theorem callLog_of_connectInfo_error (hstate : s.client.state = .init)
    (hsize : minimumBufferSize ≤ s.client.buffer.length)
    (h : s.client.connectInfo (host.now s.outside).1 = .error failure) (timeout limit : Nat)
    (hlimit : 0 < limit) : s.callLog host [.register timeout limit hlimit] = [] ∧
      (s.register host timeout limit hlimit).1 = .error failure := by
  obtain ⟨hconnect, t, hrun⟩ := prepareConnect_of_init hstate hsize h
  have hmoments : s.start.actMoments host = [] := by
    simp only [actMoments_eq, actCall?, readMoments, hconnect, hrun]
    rfl
  have hact : s.start.act host = t.settle (.failed failure) := by
    rw [act, hconnect]
    simp only [perform_connect, hrun]
  have hcomplete : (s.start.act host).client.state = .complete := by
    rw [hact]
    exact WorkflowState.next_failed _ _
  obtain ⟨hregister, hregisterMoments⟩ :=
    register_of_act_complete (by rw [hconnect]; decide) hcomplete timeout hlimit
  refine ⟨?_, ?_⟩
  · rw [callLog_register, hregisterMoments, hmoments]
    rfl
  · rw [hregister, hact]
    exact t.client.outcome_settle_failed failure

end Session

section Runs

variable {host : Host σ} {operations : List (Operation σ)} {past : List Moment}

/-- In its first registration a client that can build its credentials connects once with them. -/
theorem Run.connections_eq (h : Run host operations past s)
    (hfirst : ∀ operation ∈ operations, operation.isRegister = false) {info : ConnectInfo}
    (hinfo : s.client.connectInfo (host.now s.outside).1 = .ok info) (timeout limit : Nat)
    (hlimit : 0 < limit) :
    connections (s.callLog host [.register timeout limit hlimit]) = [info] := by
  have hnext := h.next (.register timeout limit hlimit)
  have horder := (hnext.hasPast.callInvariant hnext.sourced).inOrder
  obtain ⟨result, rest, hlog⟩ := Session.callLog_of_connectInfo_ok (h.payload_eq.1.mpr hfirst)
    h.hasPast.pollingInvariant.size hinfo timeout limit hlimit
  rw [List.filter_append, Session.moments, ← Session.callLog_register, hlog] at horder
  rw [hlog]
  exact congrArg (info :: ·) horder.connections_eq_nil

/-- A client that cannot build its credentials makes no call, and fails in its first registration. -/
theorem Run.register_of_connectInfo_error (h : Run host operations past s)
    (hfirst : ∀ operation ∈ operations, operation.isRegister = false) {failure : Failure}
    (hinfo : s.client.connectInfo (host.now s.outside).1 = .error failure) (timeout limit : Nat)
    (hlimit : 0 < limit) : s.callLog host [.register timeout limit hlimit] = [] ∧
      (s.register host timeout limit hlimit).1 = .error failure :=
  Session.callLog_of_connectInfo_error (h.payload_eq.1.mpr hfirst)
    h.hasPast.pollingInvariant.size hinfo timeout limit hlimit

end Runs

end DeviceTrust.Provisioning
