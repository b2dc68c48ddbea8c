import Gokvm.Gateway.Http

/-! # Authorization of web requests

A request reaches a protected call of the backend or the store only after a check of its session
that held when it was made. The handlers without protected calls are set aside first; each of
the others is followed from that check to its calls.
-/

namespace Gokvm.Gateway.Http

open Lib Calls List

/-! ## Handlers without protected calls -/

section Harmless

variable {Digest : Type} {lib : Primitives Digest} {config : Settings} (r : Request) (form : String → String)

/-- Calls that create, start, stop or delete a desktop, hand out a grant, or change the images. -/
def Act.isProtected : Act Digest → Bool
  | .create .. | .createWithImage .. | .createWithProgress .. | .start .. | .stop .. | .delete ..
  | .rdp .. | .grant .. | .importImage .. | .deleteImage .. => true
  | _ => false

abbrev Harmless {α : Type} (p : Handler Digest α) : Prop := p.Uses fun act => act.isProtected = false

theorem harmless_requestSession : Harmless (requestSession lib r) := by
  unfold requestSession
  split
  · exact uses_pure _
  · exact uses_call rfl fun _ => uses_pure _

theorem harmless_requireSession : Harmless (requireSession lib r form) := by
  unfold requireSession
  refine (harmless_requestSession r).bind fun found => ?_
  cases found with
  | none => exact uses_pure _
  | some session => exact uses_ite (uses_pure _) (uses_pure _)

theorem harmless_requireAdmin : Harmless (requireAdmin lib r form) := by
  unfold requireAdmin
  refine (harmless_requireSession r form).bind fun result => ?_
  cases result with
  | error response => exact uses_pure _
  | ok session => exact uses_ite (uses_pure _) (uses_pure _)

theorem harmless_showLogin (status : Nat) (message : String) :
    Harmless (showLogin status message : Handler Digest Response) := by
  unfold showLogin
  refine uses_call rfl fun token => ?_
  cases token with
  | none | some _ => exact uses_pure _

theorem harmless_loginPage : Harmless (loginPage lib r) := by
  unfold loginPage
  refine (harmless_requestSession r).bind fun found => ?_
  cases found with
  | none => exact harmless_showLogin _ _
  | some session => exact uses_pure _

theorem harmless_revokeFound (found : Option (Digest × BrowserSession)) : Harmless (revokeFound found) := by
  cases found with
  | none => exact uses_pure _
  | some session => exact uses_call rfl fun _ => uses_pure _

theorem harmless_openSession (identity : Identity) (username ip hash : String) :
    Harmless (openSession lib config r identity username ip hash) := by
  unfold openSession
  refine (harmless_requestSession r).bind fun found => ?_
  refine (harmless_revokeFound found).bind fun _ => uses_call rfl fun opened => ?_
  cases opened with
  | error failure => exact harmless_showLogin _ _
  | ok token => exact uses_pure _

theorem harmless_checkLogin (ip : String) : Harmless (checkLogin lib config r form ip) := by
  unfold checkLogin
  refine uses_ite (harmless_showLogin _ _) (uses_call rfl fun authenticated => ?_)
  cases authenticated with
  | error err => exact uses_ite (harmless_showLogin _ _) (harmless_showLogin _ _)
  | ok identity =>
    refine uses_ite (harmless_showLogin _ _) (uses_call rfl fun hash => uses_call rfl fun ended => ?_)
    split
    · exact uses_call rfl fun promoted => uses_ite (uses_pure _) (harmless_openSession ..)
    · exact harmless_showLogin _ _

theorem harmless_login : Harmless (login lib config r form) := by
  unfold login
  refine uses_ite (harmless_showLogin _ _) (uses_call rfl fun allowed => ?_)
  refine uses_ite (harmless_showLogin _ _) (uses_call rfl fun slot => ?_)
  refine uses_ite (harmless_showLogin _ _) ((harmless_checkLogin ..).bind fun response => ?_)
  exact uses_call rfl fun _ => uses_pure _

theorem harmless_logout : Harmless (logout lib r form) := by
  unfold logout
  refine (harmless_requireSession r form).bind fun result => ?_
  cases result with
  | error response => exact uses_pure _
  | ok session => exact uses_call rfl fun _ => uses_pure _

theorem harmless_dashboardData (sess : BrowserSession) :
    Harmless (dashboardData config sess : Handler Digest (PageData × Option OpError)) := by
  unfold dashboardData
  refine uses_call rfl fun listed => ?_
  cases listed with
  | error err => exact uses_pure _
  | ok vms =>
    refine uses_ite (uses_call rfl fun images => ?_) (uses_pure _)
    cases images with
    | error _ | ok _ => exact uses_pure _

theorem harmless_dashboard : Harmless (dashboard lib config r form) := by
  unfold dashboard
  refine (harmless_requireSession r form).bind fun result => ?_
  cases result with
  | error response => exact uses_pure _
  | ok session =>
    refine (harmless_dashboardData session.2).bind fun page => ?_
    obtain ⟨data, err⟩ := page
    cases err with
    | none | some _ => exact uses_pure _

theorem harmless_adminPage : Harmless (adminPage lib config r form) := by
  unfold adminPage
  refine (harmless_requireAdmin r form).bind fun result => ?_
  cases result with
  | error response => exact uses_pure _
  | ok sess =>
    refine uses_ite (uses_pure _) (uses_call rfl fun listed => ?_)
    cases listed with
    | error err => exact uses_pure _
    | ok vms =>
      refine uses_call rfl fun images => ?_
      cases images with
      | error _ | ok _ => exact uses_pure _

theorem harmless_latency : Harmless (latency lib r form) := by
  unfold latency
  refine (harmless_requireSession r form).bind fun result => ?_
  cases result with
  | error _ | ok _ => exact uses_pure _

theorem harmless_promoteFound (found : Option (Digest × BrowserSession)) : Harmless (promoteFound found) := by
  unfold promoteFound
  exact uses_ite (uses_call rfl fun _ => uses_pure _) (uses_pure _)

theorem harmless_get {segments : List String} {found : Route} (get : getRoute segments = some found)
    : Harmless (handle lib config r form found) := by
  unfold getRoute at get
  split at get
  · cases get; exact harmless_dashboard r form
  · cases get; exact harmless_adminPage r form
  · cases get; exact harmless_loginPage r
  · cases get; exact harmless_latency r form
  · cases get; exact uses_pure _
  · cases get

end Harmless

section Authorization

variable {Digest : Type} [DecidableEq Digest] (lib : Primitives Digest) (config : Settings)

/-! ## What a request needs -/

/-- The session store and the clock when a call runs. -/
structure Moment (Digest : Type) where
  store : SessionStore Digest
  now : Nat

abbrev Step (Digest : Type) : Type := Calls.Event (Act Digest) Act.Answer (Moment Digest)

/-- The session store answers by its operations; everything else answers anything. -/
def Fits : Step Digest → Prop
  | ⟨.session raw ip, moment, answer⟩ => answer = (moment.store.session lib.sha256 raw ip moment.now).1
  | ⟨.allowLogin ip, moment, answer⟩ => answer = (moment.store.allowLogin ip moment.now).1
  | ⟨.newLoginSession identity login ip hash, moment, answer⟩ =>
    ∃ random csrfRandom stamp, answer = (moment.store.newLoginSession lib.sha256 config.sessions identity
      login ip hash random csrfRandom moment.now stamp).1
  | ⟨.grant key vm, moment, answer⟩ =>
    ∃ random, answer = (moment.store.grant lib.sha256 key vm random moment.now).1
  | ⟨.uploadContext key, moment, answer⟩ =>
    ∃ lease, answer = (moment.store.uploadContext key lease moment.now).1
  | _ => True

/-- The token is in the form, or in the first part of an upload. -/
def Request.Carries (r : Request) (token : String) : Prop :=
  (∃ form, r.form = some form ∧ form "csrf" = token) ∨
    ∃ part rest, r.parts = some (part :: rest) ∧ part.formName = "csrf" ∧ part.content = token

/-- The request goes to an action of the administration page. -/
def Request.AdminAction (r : Request) : Prop :=
  ∃ segments id action, r.segments = some segments ∧ route r.method segments = .adminVMAction id action

/-- The cookie named a live session of the store that belongs to the client's address. -/
def SignedIn (r : Request) (history : List (Step Digest)) (key : Digest) (sess : BrowserSession) : Prop :=
  ∃ raw moment stored, r.cookie sessionCookie = some raw ∧ tokenKey lib.sha256 raw = some key ∧
    ⟨.session raw (clientIP lib r.remoteAddr), moment, some (key, sess)⟩ ∈ history ∧
    moment.store.sessions.lookup key = some stored ∧ moment.now < stored.expires ∧
    stored.clientIP = clientIP lib r.remoteAddr ∧ sess = { stored with connections := [] }

structure Authorized (r : Request) (history : List (Step Digest)) (key : Digest)
    (sess : BrowserSession) : Prop where
  post : r.method = "POST"
  host : SameAddress lib.toLower r.host config.publicAddress
  origin : ∃ origin, lib.parseURL (r.header "Origin") = some origin ∧ origin.scheme = "https" ∧
    SameAddress lib.toLower origin.host config.publicAddress
  signedIn : SignedIn lib r history key sess
  token : r.Carries sess.csrf

/-- The backend listed the desktop among those of the owner. -/
def Listed (history : List (Step Digest)) (owner id : String) : Prop :=
  ∃ moment vms, ⟨.list owner, moment, .ok vms⟩ ∈ history ∧ ∃ vm ∈ vms, vm.id = id ∧ vm.owner = owner

def Permitted (history : List (Step Digest)) (key : Digest) (sess : BrowserSession) : Act Digest → Prop
  | .create owner .. | .createWithImage owner .. | .createWithProgress owner .. => owner = sess.owner
  | .start owner id | .stop owner id | .delete owner id =>
    owner = sess.owner ∧ Listed history owner id ∨ sess.isAdmin = true
  | .rdp owner id => owner = sess.owner ∧ Listed history owner id
  | .grant session vm => session = key ∧ Listed history sess.owner vm
  | .importImage _ | .deleteImage _ => sess.isAdmin = true
  | _ => True

def Allowed (r : Request) (history : List (Step Digest)) (act : Act Digest) : Prop :=
  act.isProtected = true → ∃ key sess, Authorized lib config r history key sess ∧
    Permitted history key sess act ∧ (r.AdminAction → sess.isAdmin = true)

/-- The guards in front of the handlers, and the form that they are given. -/
structure Entered (r : Request) (form : String → String) : Prop where
  post : r.method = "POST"
  host : SameAddress lib.toLower r.host config.publicAddress
  origin : ∃ origin, lib.parseURL (r.header "Origin") = some origin ∧ origin.scheme = "https" ∧
    SameAddress lib.toLower origin.host config.publicAddress
  form : r.form = some form ∨ form = fun _ => ""

variable {lib config}

theorem allowed_of_free (r : Request) (history : List (Step Digest)) (act : Act Digest)
    (free : act.isProtected = false) : Allowed lib config r history act := by
  intro guarded
  rw [free] at guarded
  cases guarded

section Later

variable {r : Request} {history after : List (Step Digest)} {key : Digest} {sess : BrowserSession}

theorem SignedIn.later (signedIn : SignedIn lib r history key sess) (longer : history <+: after) :
    SignedIn lib r after key sess := by
  obtain ⟨raw, moment, stored, cookie, names, checked, rest⟩ := signedIn
  exact ⟨raw, moment, stored, cookie, names, longer.subset checked, rest⟩

theorem Authorized.later (authorized : Authorized lib config r history key sess)
    (longer : history <+: after) : Authorized lib config r after key sess :=
  { authorized with signedIn := authorized.signedIn.later longer }

omit [DecidableEq Digest] in
theorem Listed.later {owner id : String} (listed : Listed history owner id) (longer : history <+: after) :
    Listed after owner id := by
  obtain ⟨moment, vms, event, owned⟩ := listed
  exact ⟨moment, vms, longer.subset event, owned⟩

end Later

/-! ## The check of a session -/

variable {r : Request} {form : String → String} {history : List (Step Digest)}

theorem eq_of_equalToken {a b : String} (same : equalToken a b = true) : tokenShaped b = true ∧ b = a := by
  simp only [equalToken, Bool.and_eq_true, decide_eq_true_eq] at same
  exact ⟨same.1.2, same.2.symm⟩

omit [DecidableEq Digest] in
theorem Entered.carries (entered : Entered lib config r form) {csrf : String}
    (same : equalToken csrf (form "csrf") = true) : r.Carries csrf := by
  obtain ⟨shaped, equal⟩ := eq_of_equalToken same
  rcases entered.form with parsed | absent
  · exact .inl ⟨form, parsed, equal⟩
  · rw [absent] at shaped
    exact absurd shaped (by decide)

theorem session_eq_some {store : SessionStore Digest} {raw ip : String} {now : Nat} {key : Digest}
    {sess : BrowserSession} (found : (store.session lib.sha256 raw ip now).1 = some (key, sess)) :
    tokenKey lib.sha256 raw = some key ∧ ∃ stored, store.sessions.lookup key = some stored ∧
      now < stored.expires ∧ stored.clientIP = ip ∧ sess = { stored with connections := [] } := by
  unfold SessionStore.session at found
  cases named : tokenKey lib.sha256 raw with
  | none => simp [named] at found
  | some digest =>
    simp only [named] at found
    split at found
    · cases found
    · cases kept : store.sessions.lookup digest with
      | none => simp [kept] at found
      | some stored =>
        simp only [kept] at found
        split at found
        · cases found
        next bound =>
          split at found
          · cases found
          next fresh =>
            cases found
            exact ⟨rfl, stored, kept, not_not.mp fresh, not_not.mp bound, rfl⟩

theorem guarded_requestSession (r : Request) :
    Guarded (Fits lib config) (Allowed lib config r) (requestSession lib r) history
      fun later found => ∀ key sess, found = some (key, sess) → SignedIn lib r later key sess := by
  unfold requestSession
  cases named : r.cookie sessionCookie with
  | none => exact guarded_pure nofun
  | some raw =>
    refine guarded_request (allowed_of_free _ _ _ rfl) fun moment answer fit key sess found => ?_
    subst found
    obtain ⟨digest, stored, kept, fresh, bound, copy⟩ := session_eq_some (Eq.symm fit)
    exact ⟨raw, moment, stored, named, digest, by simp, kept, fresh, bound, copy⟩

theorem guarded_requireSession (entered : Entered lib config r form) :
    Guarded (Fits lib config) (Allowed lib config r) (requireSession lib r form) history
      fun later result => ∀ key sess, result = .ok (key, sess) →
        Authorized lib config r later key sess := by
  unfold requireSession
  refine (guarded_requestSession r).bind fun later found signedIn => ?_
  cases found with
  | none => exact guarded_pure nofun
  | some session =>
    obtain ⟨key, sess⟩ := session
    refine guarded_ite (fun _ => guarded_pure nofun) fun passed => ?_
    refine guarded_pure fun _ _ accepted => ?_
    cases accepted
    have same : equalToken sess.csrf (form "csrf") = true := by
      simpa [entered.post] using passed
    exact { entered with signedIn := signedIn key sess rfl, token := entered.carries same }

theorem guarded_requireAdmin (entered : Entered lib config r form) :
    Guarded (Fits lib config) (Allowed lib config r) (requireAdmin lib r form) history
      fun later result => ∀ sess, result = .ok sess →
        sess.isAdmin = true ∧ ∃ key, Authorized lib config r later key sess := by
  unfold requireAdmin
  refine (guarded_requireSession entered).bind fun later result authorized => ?_
  cases result with
  | error response => exact guarded_pure nofun
  | ok session =>
    obtain ⟨key, sess⟩ := session
    refine guarded_ite (fun _ => guarded_pure nofun) fun admin => ?_
    refine guarded_pure fun _ accepted => ?_
    cases accepted
    exact ⟨by simpa using admin, key, authorized key sess rfl⟩

/-! ## Handlers with protected calls -/

variable {key : Digest} {sess : BrowserSession}

variable (lib config) in
/-- Nothing is asked of how a handler ends. -/
abbrev Secure {α : Type} (r : Request) (p : Handler Digest α) (history : List (Step Digest)) : Prop :=
  Guarded (Fits lib config) (Allowed lib config r) p history fun _ _ => True

theorem Harmless.secure {α : Type} {p : Handler Digest α} (harmless : Harmless p) :
    Secure lib config r p history :=
  (harmless.guarded (allowed_of_free r)).mono fun _ _ _ => trivial

theorem secure_pure {α : Type} (a : α) : Secure lib config r (pure a) history := trivial

theorem secure_unless {c : Prop} [Decidable c] {α : Type} {a : α} {p : Handler Digest α}
    (rest : ¬ c → Secure lib config r p history) :
    Secure lib config r (if c then pure a else p) history :=
  guarded_ite (fun _ => secure_pure a) rest

theorem guarded_ownedVM (owner id : String) :
    Guarded (Fits lib config) (Allowed lib config r) (ownedVM owner id) history
      fun later result => history <+: later ∧ ∀ vm, result = .ok vm → Listed later owner vm.id := by
  unfold ownedVM
  refine guarded_call (allowed_of_free _ _ _ rfl) fun moment listed _ => ?_
  cases listed with
  | error err => exact guarded_pure ⟨prefix_append .., nofun⟩
  | ok vms =>
    cases found : vms.find? fun vm => vm.id = id ∧ vm.owner = owner with
    | none =>
      simp only [found]
      exact guarded_pure ⟨prefix_append .., nofun⟩
    | some vm =>
      simp only [found]
      refine guarded_pure ⟨prefix_append .., fun _ accepted => ?_⟩
      cases accepted
      have owned : vm.owner = owner := by
        have passed := find?_some found
        simp only [decide_eq_true_eq] at passed
        exact passed.2
      exact ⟨moment, vms, by simp, vm, mem_of_find?_eq_some found, rfl, owned⟩

section

variable (authorized : Authorized lib config r history key sess)
include authorized

theorem Authorized.allows {act : Act Digest} (permitted : Permitted history key sess act)
    (admin : r.AdminAction → sess.isAdmin = true) :
    Allowed lib config r history act :=
  fun _ => ⟨key, sess, authorized, permitted, admin⟩

theorem secure_streamCreation (plain : ¬ r.AdminAction) (name image : String) :
    Secure lib config r (streamCreation sess name image) history := by
  unfold streamCreation
  refine guarded_call (allowed_of_free _ _ _ rfl) fun moment alive _ => ?_
  refine secure_unless fun _ => ?_
  have still := authorized.later (prefix_append history [⟨.send _, moment, alive⟩])
  refine guarded_call (still.allows rfl fun admin => absurd admin plain) fun _ created _ => ?_
  cases created with
  | error _ | ok _ => exact guarded_call (allowed_of_free _ _ _ rfl) fun _ _ _ => secure_pure _

theorem secure_createDesktop (plain : ¬ r.AdminAction) (name image : String) :
    Secure lib config r (createDesktop config sess name image) history := by
  unfold createDesktop
  refine guarded_ite (fun _ => ?_) fun _ => secure_unless fun _ => ?_
  · exact guarded_request (authorized.allows rfl fun admin => absurd admin plain) fun _ _ _ => trivial
  · exact guarded_request (authorized.allows rfl fun admin => absurd admin plain) fun _ _ _ => trivial

theorem secure_act {owner id : String}
    (may : owner = sess.owner ∧ Listed history owner id ∨ sess.isAdmin = true)
    (admin : r.AdminAction → sess.isAdmin = true) (action : Action) :
    Secure lib config r (act action owner id) history := by
  cases action with
  | start | stop | delete => exact guarded_request (authorized.allows may admin) fun _ _ _ => trivial

theorem secure_downloadRDP (plain : ¬ r.AdminAction) {vm : VM}
    (listed : Listed history sess.owner vm.id) :
    Secure lib config r (downloadRDP config key sess vm) history := by
  unfold downloadRDP
  refine guarded_call (authorized.allows ⟨rfl, listed⟩ fun admin => absurd admin plain)
    fun moment endpoint _ => ?_
  cases endpoint with
  | error err => exact secure_pure _
  | ok u =>
    have longer := prefix_append history [⟨.rdp sess.owner vm.id, moment, .ok u⟩]
    refine guarded_call ((authorized.later longer).allows ⟨rfl, listed.later longer⟩
      fun admin => absurd admin plain) fun _ token _ => ?_
    cases token with
    | error _ | ok _ => exact secure_pure _

theorem secure_importPart (admin : sess.isAdmin = true) (image : Part) :
    Secure lib config r (importPart key image) history := by
  unfold importPart
  refine guarded_call (allowed_of_free _ _ _ rfl) fun moment bound _ => ?_
  have still := authorized.later (prefix_append history [⟨.uploadContext key, moment, bound⟩])
  refine secure_unless fun _ => ?_
  refine guarded_call (still.allows admin fun _ => admin) fun _ imported _ => ?_
  refine guarded_call (allowed_of_free _ _ _ rfl) fun _ _ _ => ?_
  cases imported with
  | error _ | ok _ => exact secure_pure _

end

theorem not_adminAction {segments : List String} {found : Route} (split : r.segments = some segments)
    (routed : route r.method segments = found) (other : ∀ id action, found ≠ .adminVMAction id action) :
    ¬ r.AdminAction := by
  rintro ⟨segments', id, action, split', routed'⟩
  rw [split] at split'
  cases split'
  exact other id action (routed.symm.trans routed')

section

variable (entered : Entered lib config r form)
include entered

theorem secure_createVM (plain : ¬ r.AdminAction) :
    Secure lib config r (createVM lib config r form) history := by
  unfold createVM
  refine (guarded_requireSession entered).bind fun later result authorized => ?_
  cases result with
  | error response => exact secure_pure _
  | ok session =>
    obtain ⟨key, sess⟩ := session
    refine secure_unless fun _ => ?_
    refine guarded_call (allowed_of_free _ _ _ rfl) fun moment ready _ => ?_
    have still := (authorized key sess rfl).later (prefix_append later [⟨.creationContext, moment, ready⟩])
    refine secure_unless fun _ => ?_
    refine guarded_ite (fun _ => secure_streamCreation still plain _ _) fun _ => ?_
    refine (secure_createDesktop still plain _ _).bind fun _ created _ => ?_
    cases created with
    | ok vm => exact secure_pure _
    | error err => exact (harmless_dashboardData sess).secure.bind fun _ _ _ => secure_pure _

theorem secure_vmAction (plain : ¬ r.AdminAction) (id action : String) :
    Secure lib config r (vmAction lib config r form id action) history := by
  unfold vmAction
  refine (guarded_requireSession entered).bind fun later result authorized => ?_
  cases result with
  | error response => exact secure_pure _
  | ok session =>
    obtain ⟨key, sess⟩ := session
    refine (guarded_ownedVM sess.owner id).bind fun latest found owned => ?_
    cases found with
    | error err => exact secure_pure _
    | ok vm =>
      have still := (authorized key sess rfl).later owned.1
      have listed := owned.2 vm rfl
      refine guarded_ite (fun _ => secure_downloadRDP still plain listed) fun _ => ?_
      split
      · exact secure_pure _
      next chosen _ =>
        refine (secure_act still (.inl ⟨rfl, listed⟩) (fun admin => absurd admin plain) chosen).bind ?_
        intro _ acted _
        cases acted with
        | error _ | ok _ => exact secure_pure _

theorem secure_adminVMAction (id action : String) :
    Secure lib config r (adminVMAction lib config r form id action) history := by
  unfold adminVMAction
  refine (guarded_requireAdmin entered).bind fun later result authorized => ?_
  cases result with
  | error response => exact secure_pure _
  | ok sess =>
    obtain ⟨admin, key, authorized⟩ := authorized sess rfl
    refine secure_unless fun _ => ?_
    split
    · exact secure_pure _
    next chosen _ =>
      refine guarded_call (allowed_of_free _ _ _ rfl) fun moment found _ => ?_
      cases found with
      | error err => exact secure_pure _
      | ok vm =>
        have still := authorized.later (prefix_append later [⟨.getAny id, moment, .ok vm⟩])
        refine (secure_act still (.inr admin) (fun _ => admin) chosen).bind fun _ acted _ => ?_
        cases acted with
        | error _ | ok _ => exact secure_pure _

theorem secure_deleteImage (id : String) :
    Secure lib config r (deleteImage lib config r form id) history := by
  unfold deleteImage
  refine (guarded_requireAdmin entered).bind fun later result authorized => ?_
  cases result with
  | error response => exact secure_pure _
  | ok sess =>
    obtain ⟨admin, key, authorized⟩ := authorized sess rfl
    refine secure_unless fun _ => ?_
    refine guarded_call (authorized.allows admin fun _ => admin) fun _ deleted _ => ?_
    cases deleted with
    | error _ | ok _ => exact secure_pure _

/-! ## Uploads -/

/-- An upload does not go through the form: its token is that of its first part. -/
theorem secure_uploadParts (signedIn : SignedIn lib r history key sess)
    (admin : sess.isAdmin = true) : Secure lib config r (uploadParts r key sess) history := by
  unfold uploadParts
  refine guarded_call (allowed_of_free _ _ _ rfl) fun moment extended _ => ?_
  refine secure_unless fun _ => ?_
  cases body : r.parts with
  | none => exact secure_pure _
  | some parts =>
    cases parts with
    | nil => exact secure_pure _
    | cons token rest =>
      refine secure_unless fun named => ?_
      refine secure_unless fun passed => ?_
      have same : equalToken sess.csrf token.content = true := by
        simpa using (not_or.mp (not_or.mp passed).2).2
      have carries : r.Carries sess.csrf :=
        .inr ⟨token, rest, body, not_not.mp (not_or.mp named).1, (eq_of_equalToken same).2⟩
      have authorized : Authorized lib config r history key sess :=
        { entered with signedIn := signedIn, token := carries }
      cases rest with
      | nil => exact secure_pure _
      | cons image more =>
        refine secure_unless fun _ => ?_
        exact secure_importPart (authorized.later (prefix_append ..)) admin image

theorem secure_uploadImage :
    Secure lib config r (uploadImage lib config r) history := by
  unfold uploadImage
  refine (guarded_requestSession r).bind fun later found signedIn => ?_
  cases found with
  | none => exact secure_pure _
  | some session =>
    obtain ⟨key, sess⟩ := session
    refine secure_unless fun admin => ?_
    refine secure_unless fun _ => secure_unless fun _ => ?_
    refine guarded_call (allowed_of_free _ _ _ rfl) fun moment began _ => ?_
    refine secure_unless fun _ => ?_
    have still := (signedIn key sess rfl).later (prefix_append later [⟨.beginUpload, moment, began⟩])
    refine (secure_uploadParts entered still (by simpa using admin)).bind fun _ response _ => ?_
    exact guarded_call (allowed_of_free _ _ _ rfl) fun _ _ _ => secure_pure _

/-! ## Every route -/

theorem secure_post {segments : List String} {found : Route} (split : r.segments = some segments)
    (routed : route r.method segments = found) (post : postRoute segments = some found) :
    Secure lib config r (handle lib config r form found) history := by
  have plain := not_adminAction split routed
  unfold postRoute at post
  split at post
  · cases post
    exact secure_uploadImage entered
  · split at post
    · cases post
    · cases post
      exact secure_deleteImage entered _
  · split at post
    · cases post
    · cases post
      exact secure_adminVMAction entered _ _
  · cases post
    exact (harmless_login r form).secure
  · cases post
    exact (harmless_logout r form).secure
  · cases post
    exact secure_createVM entered (plain fun _ _ => by simp)
  · split at post
    · cases post
    · cases post
      exact secure_vmAction entered (plain fun _ _ => by simp) _ _
  · cases post

end

/-- The mux, where the guards let a request other than `GET` or `HEAD` through. -/
theorem secure_mux (entered : r.method = "POST" → Entered lib config r form) :
    Secure lib config r (mux lib config r form) history := by
  unfold mux
  cases split : r.segments with
  | none => exact secure_pure _
  | some segments =>
    have unmatched : ∀ status, Secure lib config r (handle lib config r form (.unmatched status)) history :=
      fun status => secure_pure _
    show Secure lib config r (handle lib config r form (route r.method segments)) history
    generalize routed : route r.method segments = found
    have cases := routed
    unfold route at cases
    by_cases safe : r.method = "GET" ∨ r.method = "HEAD"
    · simp only [if_pos safe] at cases
      cases get : getRoute segments with
      | some page =>
        simp only [get] at cases
        exact (harmless_get r form (cases ▸ get)).secure
      | none =>
        simp only [get] at cases
        exact cases ▸ unmatched _
    · simp only [if_neg safe] at cases
      by_cases post : r.method = "POST"
      · simp only [if_pos post] at cases
        cases found' : postRoute segments with
        | some page =>
          simp only [found'] at cases
          exact secure_post (entered post) split routed (cases ▸ found')
        | none =>
          simp only [found'] at cases
          exact cases ▸ unmatched _
      · simp only [if_neg post] at cases
        exact cases ▸ unmatched _

theorem secure_serve (r : Request) : Secure lib config r (serve lib config r) history := by
  unfold serve
  refine guarded_call (allowed_of_free _ _ _ rfl) fun _ (draining : Bool) _ => ?_
  refine secure_unless fun _ => ?_
  refine (harmless_requestSession r).secure.bind fun _ found _ => ?_
  refine secure_unless fun host => ?_
  refine secure_unless fun guarded => ?_
  refine (harmless_promoteFound found).secure.bind fun _ promoted _ => ?_
  refine secure_unless fun _ => ?_
  have address := (sameAuthority_iff lib.toLower).mp (by simpa using host)
  have entered : ∀ form, r.form = some form ∨ (form = fun _ => "") → r.method = "POST" →
      Entered lib config r form := by
    intro form given post
    refine { post, host := address, origin := ?_, form := given }
    have allowed : originAllowed lib config r = true := by
      simpa [post] using guarded
    unfold originAllowed at allowed
    cases parsed : lib.parseURL (r.header "Origin") with
    | none => simp [parsed] at allowed
    | some origin =>
      simp only [parsed, Bool.and_eq_true, decide_eq_true_eq] at allowed
      obtain ⟨⟨⟨⟨⟨scheme, -⟩, -⟩, -⟩, -⟩, same⟩ := allowed
      exact ⟨origin, rfl, scheme, (sameAuthority_iff lib.toLower).mp same⟩
  unfold serveForm
  refine guarded_ite (fun _ => secure_mux (entered _ (.inr rfl))) fun _ => ?_
  cases parsed : r.form with
  | none => exact secure_pure _
  | some form => exact secure_mux (entered form (.inl parsed))

/-- A request invokes a protected operation only if it is a `POST` to the public address, from a
    page of that address, with the cookie of a live session of the client's address and its token;
    the desktop belongs to the session's owner, or the session is an administrator's, as it must be
    for images and the administration page. -/
theorem http_authorization (lib : Primitives Digest) (config : Settings) (r : Request)
    (history : List (Step Digest)) (act : Act Digest)
    (reached : Reaches (Fits lib config) (serve lib config r) history act)
    (guarded : act.isProtected = true) :
    ∃ key sess, Authorized lib config r history key sess ∧ Permitted history key sess act ∧
      (r.AdminAction → sess.isAdmin = true) := by
  have secure : Secure lib config r (serve lib config r) [] := secure_serve r
  exact secure.reaches reached guarded

end Authorization

/-! A user starts a desktop of their own. -/

namespace Sample

def token : String := String.ofList (replicate 64 'a')

def lib : Primitives String where
  sha256 := id
  toLower := id
  trimSpace := id
  parseURL _ :=
    some { scheme := "https", user := false, host := "desk", path := "", rawQuery := "", fragment := "" }
  parseIP := some

def config : Settings where
  publicAddress := "desk"
  sessions := { maxSessions := 1, sessionTTL := 1 }
  maxImageUploadBytes := 0
  imageBackend := true
  adminBackend := true
  progressBackend := true
  webAssets := []

def session : BrowserSession where
  owner := "ann"
  login := "ann"
  clientIP := "10.0.0.1"
  csrf := token
  passwordHash := ""
  isAdmin := false
  expires := 1
  connections := []

def moment : Moment String where
  store := { sessions := AList.insert token session ∅, grants := ∅, attempts := ∅, cancelled := [] }
  now := 0

def request : Request where
  method := "POST"
  host := "desk"
  remoteAddr := "10.0.0.1:5000"
  urlPath := "/vms/vm-1/start"
  segments := some ["vms", "vm-1", "start"]
  header _ := "https://desk"
  cookies := [(sessionCookie, token)]
  form := some fun _ => token
  parts := none

def vm : VM where
  id := "vm-1"
  name := "one"
  owner := "ann"
  state := .stopped
  error := ""
  createdAt := 0
  imageId := ""
  imageName := []

def history : List (Step String) :=
  [⟨.draining, moment, false⟩,
    ⟨.session token "10.0.0.1", moment, some (token, session)⟩,
    ⟨.promoteConnection, moment, true⟩,
    ⟨.session token "10.0.0.1", moment, some (token, session)⟩,
    ⟨.list "ann", moment, .ok [vm]⟩]

theorem checked : Fits lib config ⟨.session token "10.0.0.1", moment, some (token, session)⟩ := by
  show some (token, session) = (moment.store.session lib.sha256 token "10.0.0.1" moment.now).1
  have shaped : tokenKey lib.sha256 token = some token := by
    rw [tokenKey_eq_some]
    exact ⟨by decide +kernel, rfl⟩
  have kept : moment.store.sessions.lookup token = some session := AList.lookup_insert _
  unfold SessionStore.session
  rw [shaped]
  simp only [kept]
  rfl

theorem reached : Reaches (Fits lib config) (serve lib config request) history (.start "ann" "vm-1") := by
  refine .later _ _ ?_ (.later _ _ ?_ (.later _ _ ?_ (.later _ _ ?_ (.later _ _ ?_ (.here _ _)))))
  · trivial
  · exact checked
  · trivial
  · exact checked
  · trivial

end Sample
theorem owner_starts_desktop :
    ∃ key sess, Authorized Sample.lib Sample.config Sample.request Sample.history key sess ∧
      Permitted Sample.history key sess (.start "ann" "vm-1") ∧
      (Sample.request.AdminAction → sess.isAdmin = true) :=
  http_authorization Sample.lib Sample.config Sample.request Sample.history (.start "ann" "vm-1")
    Sample.reached rfl

end Gokvm.Gateway.Http
