import Gokvm.Gateway.Authority
import Gokvm.Gateway.Machines
import Gokvm.Gateway.Session
import Gokvm.Lib.Calls

/-! # The web pages of the gateway

Every route of the gateway with its handler. A handler is a program of calls: to the session
store, to the backend and to the rest of the server. Other requests run between two calls, so
nothing is assumed about what one call leaves for the next.

Of a request the model has what the handlers read; of a response it leaves out the headers that
every page has.
-/

namespace Gokvm.Gateway.Http

open Lib

/-! ## Requests and responses -/

/-- What `url.Parse` tells about an origin. -/
structure Origin where
  scheme : String
  user : Bool
  host : String
  path : String
  rawQuery : String
  fragment : String

/-- Library functions that the handlers call. -/
structure Primitives (Digest : Type) where
  sha256 : String → Digest
  toLower : List Char → List Char
  trimSpace : String → String
  parseURL : String → Option Origin
  /-- `netip.ParseAddr` of an address without a zone, unmapped and written again. -/
  parseIP : String → Option String

/-- The configuration, and which optional interfaces the backend has. -/
structure Settings where
  publicAddress : String
  sessions : Config
  maxImageUploadBytes : Nat
  imageBackend : Bool
  adminBackend : Bool
  progressBackend : Bool
  webAssets : List String

structure Part where
  formName : String
  fileName : String
  content : String
  readable : Bool

structure Request where
  method : String
  host : String
  remoteAddr : String
  /-- `r.URL.Path`. -/
  urlPath : String
  /-- The path as the mux splits it, an empty last segment for a final slash; `none` where the mux
      redirects. -/
  segments : Option (List String)
  header : String → String
  cookies : List (String × String)
  /-- What `ParseForm` makes of the body. -/
  form : Option (String → String)
  /-- What `MultipartReader` makes of the body: the parts before the first error. -/
  parts : Option (List Part)

def Request.cookie (r : Request) (name : String) : Option String :=
  (r.cookies.find? fun cookie => cookie.1 = name).map (·.2)

structure PageData where
  user : String
  csrf : String
  message : String
  vms : List VM
  admin : Bool
  images : List Image
  maxImageUploadBytes : Nat

def PageData.blank : PageData where
  user := ""
  csrf := ""
  message := ""
  vms := []
  admin := false
  images := []
  maxImageUploadBytes := 0

structure CreationEvent where
  phase : String
  error : String

inductive Body where
  | empty
  | text (message : String)
  | page (file : String) (data : PageData)
  | asset (contentType file : String)
  | desktop (file : String)
  | stream

/-- The cookies are those that the response sets, with their age in seconds. -/
structure Response where
  status : Nat
  location : String
  cookies : List (String × String × Int)
  body : Body

def httpError (message : String) (status : Nat) : Response :=
  { status := status, location := "", cookies := [], body := .text message }

def notFound : Response := httpError "404 page not found" 404

def seeOther (location : String) : Response :=
  { status := 303, location := location, cookies := [], body := .empty }

def render (status : Nat) (file : String) (data : PageData) : Response :=
  { status := status, location := "", cookies := [], body := .page file data }

/-! ## Errors -/

/-- The errors that the handlers tell apart. -/
inductive Sentinel where
  | notFound
  | memoryCapacity
  | memoryCheck
  | conflict
  | invalid
  | authentication
  | canceled
  | deadlineExceeded
  | imageTooLarge
  | imageToolUnavailable
  | maxBytes
deriving DecidableEq

/-- The sentinels in the chain of an error. -/
abbrev OpError := List Sentinel

def backendError (err : OpError) : Nat × String :=
  if .notFound ∈ err then (404, "That desktop could not be found.")
  else if .memoryCapacity ∈ err then
    (409, "Not enough host memory to start this desktop. " ++
      "Stop another desktop or contact your administrator.")
  else if .memoryCheck ∈ err then
    (503, "Host memory could not be checked. Please contact your administrator.")
  else if .conflict ∈ err then
    (409, "That desktop is busy or has reached a configured limit. Please try again later.")
  else if .invalid ∈ err then (400, "Check the desktop name and try again.")
  else if .canceled ∈ err ∨ .deadlineExceeded ∈ err then
    (408, "The operation timed out. Check the desktop status before trying again.")
  else (500, "The operation could not be completed.")

def backendFailed (err : OpError) : Response := httpError (backendError err).2 (backendError err).1

def imageError (err : OpError) : Response :=
  if .maxBytes ∈ err ∨ .imageTooLarge ∈ err then
    httpError "The image exceeds the configured upload size limit." 413
  else if .imageToolUnavailable ∈ err then
    httpError "This image needs conversion. Install qemu-utils on the gateway host and try again." 503
  else if .authentication ∈ err then
    httpError "Your session expired. Sign in again before uploading." 401
  else if .invalid ∈ err then
    httpError "Use a valid standalone QCOW2 image without backing files, encryption, or external data." 400
  else if .notFound ∈ err then httpError "That image could not be found. Refresh the page." 404
  else if .conflict ∈ err then
    httpError "The image is busy, its name is already used, or it is the protected default image." 409
  else if .canceled ∈ err ∨ .deadlineExceeded ∈ err then
    httpError "Image upload timed out or was canceled. Please try again." 408
  else httpError "Image processing failed. Check available disk space and the server log." 500

def creationMessage (err : OpError) : String :=
  if .notFound ∈ err then "That base image is no longer available. Choose another image."
  else (backendError err).2

/-! ## Calls -/

inductive Act (Digest : Type) where
  -- The session store.
  | session (raw ip : String)
  | allowLogin (ip : String)
  | revoke (key : Digest)
  | newLoginSession (identity : Identity) (login ip hash : String)
  | grant (key : Digest) (vm : String)
  | uploadContext (key : Digest)
  | releaseUpload (key : Digest)
  -- The backend.
  | list (owner : String)
  | listAll
  | getAny (id : String)
  | images
  | create (owner name passwordHash : String)
  | createWithImage (owner name passwordHash imageID : String)
  | createWithProgress (owner name passwordHash imageID : String)
  | start (owner id : String)
  | stop (owner id : String)
  | delete (owner id : String)
  | rdp (owner id : String)
  | importImage (name : String)
  | deleteImage (id : String)
  -- The rest of the server.
  | draining
  | promoteConnection
  | randomToken
  | takeAuthSlot
  | releaseAuthSlot
  | authenticateIdentity (username password : String)
  | guestPasswordHash (password : String)
  | contextErr
  | creationContext
  | send (event : CreationEvent)
  | beginUpload
  | endUpload
  | uploadDeadlines

def Act.Answer {Digest : Type} : Act Digest → Type
  | .session .. => Option (Digest × BrowserSession)
  | .newLoginSession .. | .grant .. => Except Failure String
  | .list .. | .listAll => Except OpError (List VM)
  | .getAny .. | .create .. | .createWithImage .. | .createWithProgress .. => Except OpError VM
  | .images => Except OpError (List Image)
  | .start .. | .stop .. | .delete .. | .rdp .. | .importImage .. | .deleteImage .. => Except OpError Unit
  | .authenticateIdentity .. => Except OpError Identity
  | .randomToken | .guestPasswordHash .. => Option String
  | .revoke .. | .releaseUpload .. | .releaseAuthSlot | .endUpload => Unit
  | .allowLogin .. | .uploadContext .. | .draining | .promoteConnection | .takeAuthSlot | .contextErr
  | .creationContext | .send .. | .beginUpload | .uploadDeadlines => Bool

abbrev Handler (Digest : Type) (α : Type) : Type := Calls (Act Digest) Act.Answer α

def ask {Digest : Type} (act : Act Digest) : Handler Digest act.Answer := Calls.request act

/-! ## Sessions -/

section Handlers

variable {Digest : Type} (lib : Primitives Digest) (config : Settings)

def sessionCookie : String := "__Host-gokvm"

def loginCookie : String := "__Host-gokvm-login"

def equalToken (a b : String) : Bool := tokenShaped a && tokenShaped b && a = b

def clientIP (address : String) : String :=
  match splitHostPort address.toList with
  | none => ""
  | some (host, _) => (lib.parseIP (String.ofList host)).getD ""

def requestSession (r : Request) : Handler Digest (Option (Digest × BrowserSession)) :=
  match r.cookie sessionCookie with
  | none => pure none
  | some value => ask (.session value (clientIP lib r.remoteAddr))

/-- The session of the request, or the response that ends it. -/
def requireSession (r : Request) (form : String → String) :
    Handler Digest (Except Response (Digest × BrowserSession)) := do
  match ← requestSession lib r with
  | none => pure (.error (seeOther "/login"))
  | some (key, sess) =>
    if r.method = "POST" ∧ !equalToken sess.csrf (form "csrf") then
      pure (.error (httpError "Reload the page and try again." 403))
    else pure (.ok (key, sess))

def requireAdmin (r : Request) (form : String → String) :
    Handler Digest (Except Response BrowserSession) := do
  match ← requireSession lib r form with
  | .error response => pure (.error response)
  | .ok (_, sess) =>
    if !sess.isAdmin then pure (.error (httpError "Administrator access is required." 403))
    else pure (.ok sess)

/-! ## Signing in -/

def showLogin (status : Nat) (message : String) : Handler Digest Response := do
  match ← ask .randomToken with
  | none => pure (httpError "Sign in is temporarily unavailable." 503)
  | some token =>
    pure { render status "login.html" { PageData.blank with csrf := token, message := message } with
      cookies := [(loginCookie, token, 600)] }

def loginPage (r : Request) : Handler Digest Response := do
  match ← requestSession lib r with
  | some _ => pure (seeOther "/")
  | none => showLogin 200 ""

def connectionBusy : Response :=
  httpError "Gateway connection capacity reached. Please try again shortly." 503

def unsupportedName : String :=
  "Your directory username is not a supported Linux account name. Contact your administrator."

def revokeFound (found : Option (Digest × BrowserSession)) : Handler Digest Unit :=
  match found with
  | some (key, _) => ask (.revoke key)
  | none => pure ()

/-- The session that replaces the one of the request. -/
def openSession (r : Request) (identity : Identity) (username ip hash : String) :
    Handler Digest Response := do
  let found ← requestSession lib r
  revokeFound found
  match ← ask (.newLoginSession identity username ip hash) with
  | .error _ => showLogin 503 "Sign in is temporarily unavailable."
  | .ok token =>
    pure { seeOther "/" with
      cookies := [(sessionCookie, token, config.sessions.sessionTTL / 1000000000), (loginCookie, "", -1)] }

def checkLogin (r : Request) (form : String → String) (ip : String) : Handler Digest Response :=
  let username := form "username"
  let password := form "password"
  if username = "" ∨ username.utf8ByteSize > 128 ∨ password = "" ∨ password.utf8ByteSize > 1024 then
    showLogin 401 "Check your username and password."
  else do
    match ← ask (.authenticateIdentity username password) with
    | .error err =>
      if .invalid ∈ err then showLogin 403 unsupportedName
      else showLogin 401 "Check your username and password."
    | .ok identity =>
      if !validOwner identity.username then showLogin 403 unsupportedName
      else do
        let hash ← ask (.guestPasswordHash password)
        let ended ← ask .contextErr
        match hash, ended with
        | some hash, false => do
          let promoted ← ask .promoteConnection
          if !promoted then pure connectionBusy else openSession lib config r identity username ip hash
        | _, _ => showLogin 503 "Sign in is temporarily unavailable."

def login (r : Request) (form : String → String) : Handler Digest Response :=
  if !(r.cookie loginCookie).any fun value => equalToken value (form "csrf") then
    showLogin 403 "Reload this page and sign in again."
  else do
    let ip := clientIP lib r.remoteAddr
    let allowed ← ask (.allowLogin ip)
    if !allowed then showLogin 429 "Too many attempts. Please wait a minute and try again."
    else do
      let slot ← ask .takeAuthSlot
      if !slot then showLogin 503 "Sign in is busy. Please try again shortly."
      else do
        let response ← checkLogin lib config r form ip
        ask .releaseAuthSlot
        pure response

def logout (r : Request) (form : String → String) : Handler Digest Response := do
  match ← requireSession lib r form with
  | .error response => pure response
  | .ok (key, _) => do
    ask (.revoke key)
    pure { seeOther "/login" with cookies := [(sessionCookie, "", -1)] }

/-! ## Desktops -/

/-- The page of a user; an error leaves what was read before it. -/
def dashboardData (sess : BrowserSession) : Handler Digest (PageData × Option OpError) := do
  let data := { PageData.blank with user := sess.owner, csrf := sess.csrf, admin := sess.isAdmin }
  match ← ask (.list sess.owner) with
  | .error err => pure (data, some err)
  | .ok vms =>
    let data := { data with vms := vms.filter fun vm => vm.owner = sess.owner }
    if config.imageBackend then do
      match ← ask .images with
      | .error err => pure (data, some err)
      | .ok images => pure ({ data with images := images }, none)
    else pure (data, none)

def dashboard (r : Request) (form : String → String) : Handler Digest Response := do
  match ← requireSession lib r form with
  | .error response => pure response
  | .ok (_, sess) => do
    match ← dashboardData config sess with
    | (data, none) => pure (render 200 "dashboard.html" data)
    | (data, some err) =>
      pure (render (backendError err).1 "dashboard.html" { data with message := (backendError err).2 })

/-- `streamCreation`; a `send` answers whether the request is still alive. -/
def streamCreation (sess : BrowserSession) (name image : String) : Handler Digest Response := do
  let response := { httpError "" 200 with body := .stream }
  let alive ← ask (.send { phase := "preparing", error := "" })
  if !alive then pure response
  else do
    match ← ask (.createWithProgress sess.owner name sess.passwordHash image) with
    | .error err => do
      let _ ← ask (.send { phase := "error", error := creationMessage err })
      pure response
    | .ok _ => do
      let _ ← ask (.send { phase := "complete", error := "" })
      pure response

/-- The call that creates a desktop, through the interfaces the backend has. -/
def createDesktop (sess : BrowserSession) (name image : String) : Handler Digest (Except OpError VM) :=
  if config.imageBackend then ask (.createWithImage sess.owner name sess.passwordHash image)
  else if image ≠ "" then pure (.error [.invalid])
  else ask (.create sess.owner name sess.passwordHash)

def createVM (r : Request) (form : String → String) : Handler Digest Response := do
  match ← requireSession lib r form with
  | .error response => pure response
  | .ok (_, sess) =>
    let name := lib.trimSpace (form "name")
    if name = "" ∨ name.utf8ByteSize > 63 then
      pure (httpError "Choose a desktop name using 1–63 lowercase letters, numbers, or hyphens." 400)
    else do
      let ready ← ask .creationContext
      if !ready then pure (httpError "Cannot start desktop creation." 500)
      else if config.progressBackend ∧ r.header "Accept" = "application/x-ndjson" then
        streamCreation sess name (form "image")
      else do
        match ← createDesktop config sess name (form "image") with
        | .ok _ => pure (seeOther "/")
        | .error err => do
          let (data, _) ← dashboardData config sess
          pure (render (backendError err).1 "dashboard.html" { data with message := creationMessage err })

def ownedVM (owner id : String) : Handler Digest (Except OpError VM) := do
  match ← ask (.list owner) with
  | .error err => pure (.error err)
  | .ok vms =>
    match vms.find? fun vm => vm.id = id ∧ vm.owner = owner with
    | some vm => pure (.ok vm)
    | none => pure (.error [.notFound])

def downloadRDP (key : Digest) (sess : BrowserSession) (vm : VM) : Handler Digest Response := do
  match ← ask (.rdp sess.owner vm.id) with
  | .error err => pure (backendFailed err)
  | .ok _ => do
    match ← ask (.grant key vm.id) with
    | .error _ => pure (httpError "Sign in again to connect." 401)
    | .ok token =>
      pure { httpError "" 200 with
        body := .desktop ("full address:s:" ++ config.publicAddress ++ "\r\nusername:s:" ++ sess.login ++
          "\r\nloadbalanceinfo:s:" ++ token ++ "\r\n" ++
          "screen mode id:i:2\r\nuse multimon:i:0\r\nsession bpp:i:32\r\nauthentication level:i:2\r\n" ++
          "enablecredsspsupport:i:0\r\nnegotiate security layer:i:1\r\nprompt for credentials:i:1\r\n" ++
          "prompt for credentials on client:i:1\r\n" ++
          "autoreconnection enabled:i:0\r\nredirectclipboard:i:1\r\naudiomode:i:0\r\n") }

/-- The actions on a desktop that both pages offer. -/
inductive Action where
  | start
  | stop
  | delete
deriving DecidableEq

def Action.ofText (text : String) : Option Action :=
  if text = "start" then some .start
  else if text = "stop" then some .stop
  else if text = "delete" then some .delete
  else none

def act (action : Action) (owner id : String) : Handler Digest (Except OpError Unit) :=
  match action with
  | .start => ask (.start owner id)
  | .stop => ask (.stop owner id)
  | .delete => ask (.delete owner id)

def vmAction (r : Request) (form : String → String) (id action : String) : Handler Digest Response := do
  match ← requireSession lib r form with
  | .error response => pure response
  | .ok (key, sess) => do
    match ← ownedVM sess.owner id with
    | .error err => pure (backendFailed err)
    | .ok vm =>
      if action = "rdp" then downloadRDP config key sess vm
      else match Action.ofText action with
        | none => pure notFound
        | some action => do
          match ← act action sess.owner vm.id with
          | .error err => pure (backendFailed err)
          | .ok _ => pure (seeOther "/")

/-! ## Administration -/

def uploadLimit : Nat :=
  if config.maxImageUploadBytes > 0 then config.maxImageUploadBytes else 20 * 2 ^ 30

def adminPage (r : Request) (form : String → String) : Handler Digest Response := do
  match ← requireAdmin lib r form with
  | .error response => pure response
  | .ok sess =>
    if !config.adminBackend ∨ !config.imageBackend then
      pure (httpError "Administration is unavailable for this backend." 503)
    else do
      match ← ask .listAll with
      | .error err => pure (backendFailed err)
      | .ok vms => do
        match ← ask .images with
        | .error _ => pure (httpError "Base images are temporarily unavailable." 503)
        | .ok catalog =>
          pure (render 200 "admin.html"
            { PageData.blank with
                user := sess.owner, csrf := sess.csrf, admin := true, vms := vms, images := catalog
                maxImageUploadBytes := uploadLimit config })

def adminVMAction (r : Request) (form : String → String) (id action : String) :
    Handler Digest Response := do
  match ← requireAdmin lib r form with
  | .error response => pure response
  | .ok _ =>
    if !config.adminBackend then pure (httpError "Administration is unavailable for this backend." 503)
    else match Action.ofText action with
      | none => pure notFound
      | some action => do
        match ← ask (.getAny id) with
        | .error err => pure (backendFailed err)
        | .ok vm => do
          match ← act action vm.owner vm.id with
          | .error err => pure (backendFailed err)
          | .ok _ => pure (seeOther "/admin")

def deleteImage (r : Request) (form : String → String) (id : String) : Handler Digest Response := do
  match ← requireAdmin lib r form with
  | .error response => pure response
  | .ok _ =>
    if !config.imageBackend then
      pure (httpError "Image management is unavailable for this backend." 503)
    else do
      match ← ask (.deleteImage id) with
      | .error err => pure (imageError err)
      | .ok _ => pure (seeOther "/admin")

def imageUploadRequest (r : Request) : Bool := r.method = "POST" && r.urlPath = "/admin/images"

/-- The import, bound to the session that uploads. -/
def importPart (key : Digest) (image : Part) : Handler Digest Response := do
  let bound ← ask (.uploadContext key)
  if !bound then pure (httpError "Sign in again before uploading." 401)
  else do
    let result ← ask (.importImage image.fileName)
    ask (.releaseUpload key)
    match result with
    | .error err => pure (imageError err)
    | .ok _ => pure (seeOther "/admin")

/-- The body of an upload: the token first, then the image. -/
def uploadParts (r : Request) (key : Digest) (sess : BrowserSession) : Handler Digest Response := do
  let extended ← ask .uploadDeadlines
  if !extended then pure (httpError "Upload is temporarily unavailable." 503)
  else match r.parts with
    | none => pure (httpError "Choose a QCOW2 file using the upload form." 400)
    | some [] => pure (httpError "Reload the page and try again." 403)
    | some (token :: rest) =>
      if token.formName ≠ "csrf" ∨ token.fileName ≠ "" then
        pure (httpError "Reload the page and try again." 403)
      -- At most 257 bytes of the part are read.
      else if !token.readable ∨ token.content.utf8ByteSize > 256 ∨ !equalToken sess.csrf token.content then
        pure (httpError "Reload the page and try again." 403)
      else match rest with
        | [] => pure (httpError "Choose one QCOW2 image to upload." 400)
        | image :: _ =>
          if image.formName ≠ "image" ∨ image.fileName = "" then
            pure (httpError "Choose one QCOW2 image to upload." 400)
          else importPart key image

def uploadImage (r : Request) : Handler Digest Response := do
  match ← requestSession lib r with
  | none => pure (seeOther "/login")
  | some (key, sess) =>
    if !sess.isAdmin then pure (httpError "Administrator access is required." 403)
    else if r.header "X-Csrf-Token" ≠ "" ∧ !equalToken sess.csrf (r.header "X-Csrf-Token") then
      pure (httpError "Reload the page and try again." 403)
    else if !config.imageBackend then
      pure (httpError "Image management is unavailable for this backend." 503)
    else do
      let began ← ask .beginUpload
      if !began then
        pure (httpError "Another image is uploading. Please try again when it finishes." 409)
      else do
        let response ← uploadParts r key sess
        ask .endUpload
        pure response

/-! ## Routes -/

inductive Route where
  | dashboard
  | adminPage
  | uploadImage
  | deleteImage (id : String)
  | adminVMAction (id action : String)
  | loginPage
  | login
  | logout
  | createVM
  | vmAction (id action : String)
  | asset (name : String)
  | latency
  | unmatched (status : Nat)
deriving DecidableEq

/-- The routes of `GET`, which serve `HEAD` too. -/
def getRoute : List String → Option Route
  | [""] => some .dashboard
  | ["admin"] => some .adminPage
  | ["login"] => some .loginPage
  | ["health", "latency"] => some .latency
  | "static" :: asset :: rest => some (.asset ("/".intercalate (asset :: rest)))
  | _ => none

/-- A wildcard does not match a final slash. -/
def postRoute : List String → Option Route
  | ["admin", "images"] => some .uploadImage
  | ["admin", "images", id, "delete"] => if id = "" then none else some (.deleteImage id)
  | ["admin", "vms", id, action] => if id = "" ∨ action = "" then none else some (.adminVMAction id action)
  | ["login"] => some .login
  | ["logout"] => some .logout
  | ["vms"] => some .createVM
  | ["vms", id, action] => if id = "" ∨ action = "" then none else some (.vmAction id action)
  | _ => none

def route (method : String) (segments : List String) : Route :=
  let found :=
    if method = "GET" ∨ method = "HEAD" then getRoute segments
    else if method = "POST" then postRoute segments
    else none
  match found with
  | some route => route
  | none => .unmatched (if (getRoute segments).isSome ∨ (postRoute segments).isSome then 405 else 404)

def contentTypes : List (String × String) :=
  [(".css", "text/css; charset=utf-8"), (".js", "text/javascript; charset=utf-8"), (".woff", "font/woff"),
    (".woff2", "font/woff2")]

/-- `path.Ext`: from the last dot of the last element. -/
def pathExt (name : String) : String :=
  let element := name.toList.reverse.takeWhile (· ≠ '/')
  if '.' ∈ element then String.ofList ('.' :: (element.takeWhile (· ≠ '.')).reverse) else ""

def serveWebAsset (name : String) : Response :=
  match contentTypes.lookup (pathExt name) with
  | none => notFound
  | some contentType =>
    let file := if name = "dashboard.js" ∨ name = "admin.js" then name else "static/" ++ name
    if file ∈ config.webAssets then { httpError "" 200 with body := .asset contentType file } else notFound

def latency (r : Request) (form : String → String) : Handler Digest Response := do
  match ← requireSession lib r form with
  | .error response => pure response
  | .ok _ => pure { httpError "" 204 with body := .empty }

def handle (r : Request) (form : String → String) : Route → Handler Digest Response
  | .dashboard => dashboard lib config r form
  | .adminPage => adminPage lib config r form
  | .uploadImage => uploadImage lib config r
  | .deleteImage id => deleteImage lib config r form id
  | .adminVMAction id action => adminVMAction lib config r form id action
  | .loginPage => loginPage lib r
  | .login => login lib config r form
  | .logout => logout lib r form
  | .createVM => createVM lib config r form
  | .vmAction id action => vmAction lib config r form id action
  | .asset name => pure (serveWebAsset config name)
  | .latency => latency lib r form
  | .unmatched status => pure (if status = 404 then notFound else httpError "Method Not Allowed" status)

/-- The mux; a path that is not clean is redirected. -/
def mux (r : Request) (form : String → String) : Handler Digest Response :=
  match r.segments with
  | none => pure { httpError "" 301 with body := .empty }
  | some segments => handle lib config r form (route r.method segments)

def originAllowed (r : Request) : Bool :=
  match lib.parseURL (r.header "Origin") with
  | none => false
  | some origin =>
    origin.scheme = "https" && !origin.user && origin.path = "" && origin.rawQuery = "" &&
      origin.fragment = "" && sameAuthority lib.toLower origin.host config.publicAddress

/-- After the guards a form is parsed, except for an upload and without a body. -/
def serveForm (r : Request) : Handler Digest Response :=
  if r.method = "GET" ∨ r.method = "HEAD" ∨ imageUploadRequest r then mux lib config r fun _ => ""
  else match r.form with
    | none => pure (httpError "Invalid form." 400)
    | some form => mux lib config r form

/-- Only a request with a session takes a place among the authenticated connections. -/
def promoteFound (found : Option (Digest × BrowserSession)) : Handler Digest Bool :=
  if found.isSome then ask .promoteConnection else pure true

/-- One request, as the handler of `routes` serves it. -/
def serve (r : Request) : Handler Digest Response := do
  let draining : Bool ← ask .draining
  if draining then pure (httpError "Gateway is shutting down." 503)
  else do
    let found ← requestSession lib r
    if !sameAuthority lib.toLower r.host config.publicAddress then
      pure (httpError "Unknown gateway address." 421)
    else if r.method ≠ "GET" ∧ r.method ≠ "HEAD" ∧ !originAllowed lib config r then
      pure (httpError "Please submit this form from the gateway page." 403)
    else do
      let promoted ← promoteFound found
      if !promoted then pure connectionBusy else serveForm lib config r

end Handlers

end Gokvm.Gateway.Http
