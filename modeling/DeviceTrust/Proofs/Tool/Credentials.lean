import DeviceTrust.Proofs.Provisioning.Credentials
import DeviceTrust.Tool.Subcommand

/-!
# The tool prints the credentials of the client

The tool writes the user name and the token into buffers of their own, while a client writes them
into two regions of its working buffer when it connects. With the same settings both come to the
same texts, and both fail alike: one of the texts is too long.

Results:
* `boundedUserName_eq`, `deviceCredentials_eq`: the credentials of the tool, without its buffers.
* `SasToken.IsFor.connectInfo_eq`: what a client connects with, by the credentials of the tool.
* `SasToken.credentials_presented`: the first registration of a client, by the credentials of the
  tool.
-/

namespace DeviceTrust.Tool

open Provisioning (Client Failure Host Operation Run Script Session SymmetricKey boundedText
  connections minimumBufferSize readSecret tokenLifetime userName userNameMax writeText)

/-! ## Credentials without buffers -/

theorem boundedUserName_eq (idScope registrationId userAgent : String) :
    boundedUserName idScope registrationId userAgent =
      (boundedText userNameMax (userName idScope registrationId userAgent)).mapError .failure := by
  have hwritten := Provisioning.written_writeText (userName idScope registrationId userAgent)
    (List.replicate userNameMax 0)
  rw [List.length_replicate] at hwritten
  simp only [boundedUserName, Provisioning.writeUserName_eq]
  generalize writeText (utf8 (userName idScope registrationId userAgent))
    (List.replicate userNameMax 0) = result at hwritten ⊢
  generalize boundedText userNameMax (userName idScope registrationId userAgent) = text
    at hwritten ⊢
  cases hwritten with
  | nothing => rfl
  | text h =>
    simp only [Bytes.take_fill h, text?_utf8]
    rfl

theorem deviceCredentials_eq {symmetricKey : String} {key : SymmetricKey Id}
    (hkey : SymmetricKey.ofEncoded (utf8 symmetricKey) hmacFunction = .ok key)
    (idScope registrationId userAgent : String) (expiry : UInt64) :
    deviceCredentials idScope registrationId symmetricKey userAgent expiry = (do
      let username ←
        (boundedText userNameMax (userName idScope registrationId userAgent)).mapError .failure
      let password ← key.token idScope registrationId expiry
      return ⟨username, password⟩) := by
  rw [deviceCredentials, boundedUserName_eq, hkey, ← key.run_password]
  rfl

/-! ## The settings of a client -/

/-- The command has the settings of the client, each from the command line or from the environment. -/
structure SasToken.IsFor (command : SasToken) (environment : Environment) (client : Client) :
    Prop where
  idScope : getSetting command.idScope environment idScopeVariable = .ok client.idScope
  registrationId :
    getSetting command.registrationId environment registrationIdVariable = .ok client.registrationId
  userAgent : command.userAgent = client.userAgent
  /-- The key is accepted, and the client has it with the HMAC function of the tool. -/
  symmetricKey : ∃ symmetricKey key,
    getSetting command.symmetricKey environment symmetricKeyVariable = .ok symmetricKey ∧
      SymmetricKey.ofEncoded (utf8 symmetricKey) hmacFunction = .ok key ∧ client.key = some key

/-- Why a client cannot connect whose key is accepted: its user name or its token is too long. -/
def connectFailure (client : Client) : Failure :=
  if userNameMax < (utf8 (userName client.idScope client.registrationId client.userAgent)).length then
    .outOfMemory
  else .tokenGenerationFailed

namespace SasToken

variable {command : SasToken} {environment : Environment}

theorem IsFor.credentials_eq {client : Client} (h : command.IsFor environment client) :
    ∃ key, client.key = some key ∧ ∀ expiry, command.credentials environment expiry =
      Except.mapError .provisioning (do
        let username ← (boundedText userNameMax
          (userName client.idScope client.registrationId client.userAgent)).mapError .failure
        let password ← key.token client.idScope client.registrationId expiry
        return ⟨username, password⟩) := by
  obtain ⟨symmetricKey, key, hsetting, haccepted, hkey⟩ := h.symmetricKey
  refine ⟨key, hkey, fun expiry => ?_⟩
  rw [← deviceCredentials_eq haccepted, credentials, h.idScope, h.registrationId, hsetting,
    h.userAgent]
  rfl

/-- What a client connects with, by the credentials that the tool gives for the same expiry. -/
theorem IsFor.connectInfo_eq {client : Client} (h : command.IsFor environment client)
    {time expiry : UInt64} (hexpiry : time + tokenLifetime = expiry) :
    client.connectInfo time = match command.credentials environment expiry with
      | .ok credentials => .ok
        (.presenting client.registrationId credentials.username (some credentials.password))
      | .error _ => .error (connectFailure client) := by
  obtain ⟨key, hkey, hcredentials⟩ := h.credentials_eq
  rw [hcredentials, Client.connectInfo, Client.password_of_some hkey, hexpiry, connectFailure]
  by_cases hname : userNameMax <
      (utf8 (userName client.idScope client.registrationId client.userAgent)).length
  · rw [Provisioning.boundedText_of_lt hname, if_pos hname]
    rfl
  · rw [Provisioning.boundedText_of_le (Nat.le_of_not_lt hname), if_neg hname]
    cases key.token client.idScope client.registrationId expiry <;> rfl

end SasToken

/-! ## The first registration -/

section Runs

variable {σ : Type} {host : Host σ} {operations : List (Operation σ)}
  {past : List Provisioning.Moment} {s : Session σ} {command : SasToken} {environment : Environment}

/-- The tool and the client present the same credentials. If the tool has credentials for a token
that expires when the token of the client does, the host of the client is told to connect once in the
first registration, with this user name and this password. If it has none, the host gets no call at
all, and the registration fails because one of the two texts is too long. -/
theorem SasToken.credentials_presented (h : Run host operations past s)
    (hfirst : ∀ operation ∈ operations, operation.isRegister = false)
    (hfor : command.IsFor environment s.client) {expiry : UInt64}
    (hexpiry : expiry.toNat = (host.now s.outside).1.toNat + 3600) (timeout limit : Nat)
    (hlimit : 0 < limit) :
    let log := s.callLog host [.register timeout limit hlimit]
    (∀ credentials, command.credentials environment expiry = .ok credentials →
      connections log = [{
        clientId := s.client.registrationId
        username := credentials.username
        password := some credentials.password
        cleanSession := true
        keepAlive := 60000
        connackTimeout := 1000 }]) ∧
    ∀ e, command.credentials environment expiry = .error e →
      log = [] ∧ (s.register host timeout limit hlimit).1 = .error
          (if 256 < (utf8 (userName s.client.idScope s.client.registrationId
            s.client.userAgent)).length then .outOfMemory else .tokenGenerationFailed) := by
  have htime : (host.now s.outside).1 + tokenLifetime = expiry := by
    have hlt := expiry.toNat_lt
    rw [← UInt64.toNat_inj, UInt64.toNat_add, hexpiry, Nat.mod_eq_of_lt]
    · rfl
    · exact hexpiry ▸ hlt
  have hinfo := hfor.connectInfo_eq htime
  refine ⟨fun credentials hok => ?_, fun e herror => ?_⟩
  · rw [hok] at hinfo
    exact h.connections_eq hfirst hinfo timeout limit hlimit
  · rw [herror] at hinfo
    exact h.register_of_connectInfo_error hfirst hinfo timeout limit hlimit

/-- The settings of a device in an id scope, except for its registration id. -/
def deviceCommand (idScope : String) : SasToken where
  idScope := some idScope
  registrationId := none
  symmetricKey := some "ABC12345"
  expirySeconds := 3600
  userAgent := ""

/-- An environment with a registration id. -/
def deviceEnvironment : Environment := fun name =>
  if name = registrationIdVariable then some "device" else none

/-- A new client with these settings. -/
theorem deviceCommand_isFor {idScope : String} (h : idScope.isEmpty = false) :
    ∃ s : Session Script, Run .scripted [.setSymmetricKey (utf8 "ABC12345") hmacFunction] [] s ∧
      (deviceCommand idScope).IsFor deviceEnvironment s.client ∧
      s.client.idScope = idScope ∧ s.client.registrationId = "device" ∧
      s.client.userAgent = "" := by
  obtain ⟨client, hnew⟩ : ∃ client, Client.new "global" idScope "device" ""
      (List.replicate minimumBufferSize 0) = .ok client := by
    rw [Client.new, h, List.length_replicate]
    exact ⟨_, rfl⟩
  have hsecret : readSecret (utf8 "ABC12345") = .ok [0, 16, 181, 219, 126, 57] := by
    decide +kernel
  have hkey : SymmetricKey.ofEncoded (utf8 "ABC12345") hmacFunction =
      .ok ⟨[0, 16, 181, 219, 126, 57], hmacFunction⟩ := by
    rw [SymmetricKey.ofEncoded, hsecret]
    rfl
  refine ⟨_, (Run.new hnew []).next _, ?_⟩
  rw [Client.eq_of_new hnew]
  simp only [Session.apply, Client.setSymmetricKey, hkey, and_true]
  exact ⟨rfl, rfl, rfl, _, _, rfl, hkey, rfl⟩

/-- A device whose credentials fit, and one whose token does not: its id scope is too long once it has
been escaped. -/
theorem credentials_presented_lengths :
    (∃ (s : Session Script) (credentials : Credentials),
      (deviceCommand "scope").IsFor deviceEnvironment s.client ∧
      (deviceCommand "scope").credentials deviceEnvironment 3600 = .ok credentials ∧
      connections (s.callLog .scripted [.register 2000]) =
        [.presenting "device" credentials.username (some credentials.password)]) ∧
    ∃ (s : Session Script) (idScope : String),
      (deviceCommand idScope).IsFor deviceEnvironment s.client ∧
      (deviceCommand idScope).credentials deviceEnvironment 3600 =
        .error (.provisioning (.failure .outOfMemory)) ∧
      s.callLog .scripted [.register 2000] = [] ∧
      (s.register .scripted 2000).1 = .error .tokenGenerationFailed := by
  have hclock (s : Session Script) :
      (3600 : UInt64).toNat = (Host.scripted.now s.outside).1.toNat + 3600 := rfl
  have hfirst : ∀ operation ∈ [Operation.setSymmetricKey (utf8 "ABC12345") hmacFunction],
      (operation : Operation Script).isRegister = false :=
    List.forall_mem_singleton.mpr rfl
  constructor
  · obtain ⟨s, hrun, hfor, -, hregistrationId, -⟩ :=
      deviceCommand_isFor (show "scope".isEmpty = false by decide)
    have hgiven : ((deviceCommand "scope").credentials deviceEnvironment 3600).toBool = true := by
      decide +kernel
    cases hok : (deviceCommand "scope").credentials deviceEnvironment 3600 with
    | error e =>
      rw [hok] at hgiven
      cases hgiven
    | ok credentials =>
      obtain ⟨hpresented, -⟩ := SasToken.credentials_presented hrun hfirst hfor (hclock s) 2000 _
        Provisioning.processLoopTimeout_pos
      refine ⟨s, credentials, hfor, rfl, ?_⟩
      rw [← hregistrationId]
      exact hpresented credentials hok
  · let idScope := String.ofList (List.replicate 80 '/')
    obtain ⟨s, hrun, hfor, hidScope, hregistrationId, huserAgent⟩ :=
      deviceCommand_isFor (show idScope.isEmpty = false by decide)
    have hrefused : (deviceCommand idScope).credentials deviceEnvironment 3600 =
        .error (.provisioning (.failure .outOfMemory)) := by
      decide +kernel
    have hname : ¬256 < (utf8 (userName idScope "device" "")).length := by
      decide +kernel
    obtain ⟨-, hfailed⟩ := SasToken.credentials_presented hrun hfirst hfor (hclock s) 2000 _
        Provisioning.processLoopTimeout_pos
    obtain ⟨hcalls, hresult⟩ := hfailed _ hrefused
    rw [hidScope, hregistrationId, huserAgent, if_neg hname] at hresult
    exact ⟨s, idScope, hfor, hrefused, hcalls, hresult⟩

end Runs

end DeviceTrust.Tool
