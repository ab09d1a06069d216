import ContentDecryption.Argument
import ContentDecryption.Client.World

/-!
# Lines of a journal

How a journal shows its entries: as a list of values, the first of which says what
kind of entry it is. A request is shown by name with its arguments; those about a
session come after the number of the session. The sink of a session is nobody else's
business.
-/

namespace ContentDecryption

namespace Service

/-- The arguments of a request about a key system, the key system apart. -/
def SystemRequest.arguments : SystemRequest → List Argument
  | .enableSecureStop enable => [.flag enable]
  | .secureStop id => [.bytes id]
  | .commitSecureStop id response => [.bytes id, .bytes response]
  | _ => []

/-- The arguments of a request about a session, the session apart. -/
def SessionRequest.arguments : SessionRequest → List Argument
  | .update response => [.bytes response]
  | .setParameter name value => [.text name, .text value]
  | .setDrmHeader header => [.bytes header]
  | .challengeData limitedDuration => [.flag limitedDuration]
  | .storeLicenseData license => [.bytes license]
  | .selectKeyId id => [.bytes id]
  | _ => []

/-- The arguments of a request. -/
def Request.arguments : Request → List Argument
  | .openConnection timeoutMs connector interfaceName =>
    [.number timeoutMs, .text connector, .text interfaceName]
  | .accessor => []
  | .closeConnection timeoutMs => [.number timeoutMs]
  | .isTypeSupported keySystem mimeType => [.text keySystem, .text mimeType]
  | .metadata keySystem => [.text keySystem]
  | .createSession setup _ =>
    [.text setup.keySystem, .number setup.licenseType.toInt, .text setup.initDataType,
      .bytes setup.initData, .bytes setup.cdmData]
  | .setServerCertificate keySystem certificate => [.text keySystem, .bytes certificate]
  | .system keySystem r => .text keySystem :: r.arguments
  | .session index r => [.number index, .list r.arguments]

end Service

namespace Client

/-- An event, and who was told about it. -/
def eventLine (who : List String) : SessionEvent → List Argument
  | .challenge url challenge => .text "challenge" :: who.map .text ++ [.text url, .bytes challenge]
  | .keyUpdated id => .text "key" :: who.map .text ++ [.bytes id]
  | .error message => .text "error" :: who.map .text ++ [.text message]
  | .keysUpdated => .text "keys" :: who.map .text

/-- An entry as a journal shows it. -/
def Entry.line : Entry → List Argument
  | .asked r => [.text "call", .text r.name, .list r.arguments]
  | .told name e => eventLine [name] e
  | .called name _ session e => eventLine [name, session] e
  | .released name status => [.text "destructed", .text name, .number status.toNat]
  | .callbackReturned name => [.text "finished", .text name]
  | .releaseReturned name => [.text "returned", .text name]

end Client

end ContentDecryption
