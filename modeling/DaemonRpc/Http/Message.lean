import DaemonRpc.Client.Wire
import DaemonRpc.Http.Status
import DaemonRpc.Text.Base64

/-!
# Requests and replies over HTTP

A request to the daemon is the body of a `POST` to its endpoint, with the account and the
secret in a header.  An endpoint that names a user of its own has a header for that user in
front of it.

`Http.answer` is what a reply means to the client: the body of a reply with status 200, and
an error otherwise.  Redirections are not followed.
-/

namespace DaemonRpc.Http

/-- A request to the daemon. -/
structure Message where
  target : String
  /-- The values of the header with the credentials, in order. -/
  authorization : List String
  contentType : String
  userAgent : String
  body : Bytes

/-- The first line of a request. -/
def Message.requestLine (m : Message) : String := "POST " ++ m.target ++ " HTTP/1.1"

/-- The credentials of an account as a header has them. -/
def credentials (account secret : String) : String :=
  "Basic " ++ Base64.encode (Bytes.utf8 (account ++ ":" ++ secret))

/-- A text without its percent encoding, if that is UTF-8. -/
def plainText? (s : String) : Option String := Bytes.ofUtf8? (Percent.decode (Bytes.utf8 s))

/-- The credentials of the user that an endpoint names. -/
def endpointCredentials (e : Endpoint) : List String :=
  match plainText? e.username with
  | none => []
  | some name =>
    let password := e.password.bind plainText?
    if name.isEmpty && password.isNone then [] else [credentials name (password.getD "")]

/-- The request that carries a body. -/
def Message.ofBody (c : ConnectionConfig) (body : Bytes) : Message where
  target := c.endpoint.target
  authorization := endpointCredentials c.endpoint ++ [credentials c.account c.secret]
  contentType := DaemonRpc.contentType
  userAgent := DaemonRpc.userAgent
  body := body

/-- A reply: its status, and its body or why the body broke off. -/
structure Reply where
  status : UInt16
  body : Except String Bytes

/-- A failure of the connection in words. -/
def failure (e : Endpoint) (cause : String) : TransportError :=
  .io ("POST " ++ e.text ++ " failed: " ++ cause)

/-- What becomes of a request, from the reply or from why there is none. -/
def answer (e : Endpoint) : Except String Reply → Except TransportError Bytes
  | .error cause => .error (failure e cause)
  | .ok reply =>
    if !isFinal reply.status then .error (failure e "connection closed before message completed")
    else if reply.status ≠ okStatus then
      .error (.httpStatus reply.status (reason reply.status))
    else
      match reply.body with
      | .ok body => .ok body
      | .error cause => .error (failure e cause)

end DaemonRpc.Http
