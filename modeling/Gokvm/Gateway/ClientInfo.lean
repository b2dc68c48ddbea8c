import Gokvm.Rdp.ClientInfo

/-! # Credentials in a Client Info PDU

The gateway reads the credentials out of the client's Client Info PDU and forwards the
PDU without its password. What it forwards depends on the password in no way, and is
again a Client Info PDU that carries everything else the client sent.
-/

namespace Gokvm.Gateway

open Lib Rdp List ClientInfo

/-- How the pre-authentication exchange fails. -/
inductive GateFault where
  | authentication
  | transport
  | shortWrite
  | cancelled
deriving DecidableEq

structure Credentials where
  username : String
  password : String
  domain : String
deriving DecidableEq

/-! ## Reading -/

def clientInfoData (mcs : Bytes) : Except GateFault Bytes :=
  if mcs.length < 7 ∨ mcs.getD 0 0 ≠ 0x64 ∨ beNat (part mcs 1 2) ≠ 0 ∨
      beNat (part mcs 3 2) ≠ 1003 ∨ mcs.getD 5 0 ≠ 0x70 then .error .authentication
  else match perLength (mcs.drop 6) with
    | none => .error .authentication
    | some (n, size) =>
      let off := 6 + size
      if n ≠ mcs.length - off then .error .authentication
      else
        let info := mcs.drop off
        if info.length < 22 ∨ leNat (part info 0 4) ≠ 0x40 then .error .authentication
        else .ok info

/-- The code point at the front of a string and the bytes it takes. -/
def rdpCredentialRune (encoded : Bytes) (width : Nat) : Option (Nat × Nat) :=
  if width = 1 then
    let b := encoded.getD 0 0
    if 0x80 ≤ b then none else some (b.toNat, 1)
  else
    let r := leNat (part encoded 0 2)
    if ¬ (0xd800 ≤ r ∧ r < 0xe000) then some (r, 2)
    else if r > 0xdbff ∨ encoded.length < 4 then none
    else
      let low := leNat (part encoded 2 2)
      if low < 0xdc00 ∨ low > 0xdfff then none
      else some ((((r - 0xd800) <<< 10) ||| (low - 0xdc00)) + 0x10000, 4)

/-- The loop of `decodeRDPCredential`; every pass takes at least one byte. -/
def decodeRunes (width limit : Nat) : (fuel : Nat) → Bytes → String → Except GateFault String
  | 0, _, decoded => .ok decoded
  | fuel + 1, encoded, decoded =>
    if encoded = [] then .ok decoded
    else match rdpCredentialRune encoded width with
      | none => .error .authentication
      | some (r, n) =>
        if r = 0 then .error .authentication
        else
          let decoded := decoded.push (Char.ofNat r)
          if decoded.utf8ByteSize > limit then .error .authentication
          else decodeRunes width limit fuel (encoded.drop n) decoded

def decodeRDPCredential (encoded : Bytes) (width limit : Nat) : Except GateFault String :=
  if encoded.length > limit * width then .error .authentication
  else decodeRunes width limit encoded.length encoded ""

/-! ## Removing the password -/

/-- `INFO_AUTOLOGON` and `INFO_USING_SAVED_CREDS`. -/
def credentialFlags : UInt32 := 0x8 ||| 0x00100000

def stripClientInfoPassword (mcs info : Bytes) (passwordOffset passwordLength : Nat) : Bytes :=
  let cleanInfo := info.take passwordOffset ++ info.drop (passwordOffset + passwordLength)
  let cleanInfo := put cleanInfo 16 (leBytes 2 0)
  let flags := infoFlags cleanInfo &&& ~~~ credentialFlags
  let cleanInfo := put cleanInfo 8 (leBytes 4 flags.toNat)
  let packet := [3, 0, 0, 0, 2, 0xf0, 0x80] ++ mcs.take 6
  let packet := packet ++ perBytes cleanInfo.length ++ cleanInfo
  put packet 2 (beBytes 2 packet.length)

def parseClientInfo (mcs : Bytes) : Except GateFault (Credentials × Bytes) := do
  let info ← clientInfoData mcs
  let flags := infoFlags info
  if flags &&& 0x00040000 ≠ 0 then .error .authentication
  else
    let width := textWidth flags
    let (items, _) ← walkFields .authentication .authentication info width fieldNumbers 22
    let field (i : Nat) := (items.getD i (0, [])).2
    let passwordOffset := (items.getD 2 (0, [])).1
    let domain ← decodeRDPCredential (field 0) width 128
    let username ← decodeRDPCredential (field 1) width 128
    let password ← decodeRDPCredential (field 2) width 1024
    if username = "" ∨ password = "" then .error .authentication
    else
      return ({ username, password, domain },
        stripClientInfoPassword mcs info passwordOffset (field 2).length)

/-! ## The sanitized packet -/

def tpkt (mcs : Bytes) : Bytes :=
  [3, 0] ++ (beBytes 2 (7 + mcs.length) ++ ([2, 0xf0, 0x80] ++ mcs))

def sanitized (f : ClientInfo) : ClientInfo :=
  { f with flags := f.flags &&& ~~~ credentialFlags, password := [] }

def infoPacket (f : ClientInfo) : Bytes :=
  tpkt (sendDataHeader ++ (perBytes f.encode.length ++ f.encode))

theorem textWidth_sanitized (flags : UInt32) :
    textWidth (flags &&& ~~~ credentialFlags) = textWidth flags := by
  have unicode : ~~~ credentialFlags &&& 0x10 = 0x10 := by decide
  rw [textWidth, textWidth, UInt32.and_assoc, unicode]

variable {f : ClientInfo} {mcs : Bytes}

theorem fits_without_password (fits : f.Fits) {flags : UInt32} (same : textWidth flags = textWidth f.flags) :
    ({ f with flags, password := [] } : ClientInfo).Fits := by
  have kept : ∀ field ∈ ({ f with flags, password := [] } : ClientInfo).fields,
      field = [] ∨ field ∈ f.fields := by
    simp only [fields, mem_cons, not_mem_nil, or_false]
    rintro field (rfl | rfl | rfl | rfl | rfl) <;> simp
  refine ⟨fits.header, fun field member => ?_, fun field member => ?_⟩
  · rcases kept field member with rfl | old
    · decide
    · exact fits.lengths field old
  · rcases kept field member with rfl | old
    · exact Nat.zero_mod _
    · exact (congrArg (field.length % ·) same).trans (fits.whole field old)

def passwordOffset (f : ClientInfo) : Nat :=
  22 + f.domain.length + textWidth f.flags + f.userName.length + textWidth f.flags

private theorem put_cut (a b c secret d data : Bytes) (same : b.length = data.length) :
    put (((a ++ (b ++ c)) ++ (secret ++ d)).take (a ++ (b ++ c)).length ++
        ((a ++ (b ++ c)) ++ (secret ++ d)).drop ((a ++ (b ++ c)).length + secret.length))
      a.length data = a ++ (data ++ (c ++ d)) := by
  rw [take_left, ← drop_drop, drop_left, drop_left, append_assoc,
    append_assoc, put_middle a (c ++ d) same]

private theorem cut_password (fits : f.Fits) :
    put (f.encode.take (passwordOffset f) ++ f.encode.drop (passwordOffset f + f.password.length))
      16 (leBytes 2 0) = ({ f with password := [] } : ClientInfo).encode := by
  -- The PDU up to the password's length, from there to the password, and after it.
  let a := f.header ++ (leBytes 4 f.flags.toNat ++
    (leBytes 2 f.domain.length ++ leBytes 2 f.userName.length))
  let c := leBytes 2 f.shell.length ++ (leBytes 2 f.directory.length ++
    (terminated (textWidth f.flags) f.domain ++ terminated (textWidth f.flags) f.userName))
  let d := replicate (textWidth f.flags) 0 ++ (terminated (textWidth f.flags) f.shell ++
    (terminated (textWidth f.flags) f.directory ++ f.extra))
  have whole : f.encode = (a ++ (leBytes 2 f.password.length ++ c)) ++ (f.password ++ d) := by
    simp [a, c, d, encode, fields, lengthTable, terminated]
  have front : a.length = 16 := by
    simp only [a, length_append, fits.header, leBytes_length]
  have reach : (a ++ (leBytes 2 f.password.length ++ c)).length = passwordOffset f := by
    simp only [c, length_append, front, leBytes_length, terminated, length_replicate,
      passwordOffset]
    omega
  rw [whole, ← reach, ← front, put_cut a _ c _ d _ (by rw [leBytes_length, leBytes_length])]
  simp [a, c, d, encode, fields, lengthTable, terminated]

private theorem put_flags (fits : f.Fits) {flags : UInt32} (same : textWidth flags = textWidth f.flags) :
    put f.encode 8 (leBytes 4 flags.toNat) = ({ f with flags } : ClientInfo).encode := by
  rw [encode, ← fits.header, put_middle _ _ (by rw [leBytes_length, leBytes_length])]
  simp only [encode, fields, same]

/-- Stripping an encoded PDU gives the frame of the sanitized one. -/
theorem stripClientInfoPassword_encode (fits : f.Fits) (header : mcs.take 6 = sendDataHeader) :
    stripClientInfoPassword mcs f.encode (passwordOffset f) f.password.length =
      infoPacket (sanitized f) := by
  have blank : ({ f with password := [] } : ClientInfo).Fits := fits_without_password fits rfl
  simp only [stripClientInfoPassword]
  rw [cut_password fits, infoFlags_encode blank,
    put_flags blank (textWidth_sanitized f.flags), header]
  have frame : ∀ rest : Bytes, put ([3, 0, 0, 0, 2, 0xf0, 0x80] ++ sendDataHeader ++
      rest) 2 (beBytes 2 (([3, 0, 0, 0, 2, 0xf0, 0x80] : Bytes) ++ sendDataHeader ++ rest).length) =
      tpkt (sendDataHeader ++ rest) := by
    intro rest
    have split : [3, 0, 0, 0, 2, 0xf0, 0x80] ++ sendDataHeader ++ rest =
        [3, 0] ++ ([0, 0] ++ ([2, 0xf0, 0x80] ++ (sendDataHeader ++ rest))) := rfl
    have size : ([3, 0] ++ ([0, 0] ++ ([2, 0xf0, 0x80] ++ (sendDataHeader ++ rest)))).length =
        7 + (sendDataHeader ++ rest).length := by
      simp only [length_append, length_cons, length_nil]
      omega
    rw [split, size]
    exact put_middle [3, 0] _ (by rw [beBytes_length]; rfl)
  rw [append_assoc, frame]
  rfl

/-! ## What the parser accepts -/

/-- The Send Data Request carries a Client Info PDU with the given parts. -/
def Carries (mcs : Bytes) (f : ClientInfo) : Prop :=
  ∃ info, clientInfoData mcs = .ok info ∧ walk info = some f

private theorem take_header (long : 7 ≤ mcs.length) (kind : mcs.getD 0 0 = 0x64)
    (initiator : beNat (part mcs 1 2) = 0) (channel : beNat (part mcs 3 2) = 1003)
    (priority : mcs.getD 5 0 = 0x70) : mcs.take 6 = sendDataHeader := by
  have pair : ∀ off, off + 2 ≤ 7 → beBytes 2 (beNat (part mcs off 2)) = part mcs off 2 := by
    intro off inside
    have exact := beBytes_beNat (part mcs off 2)
    rwa [part_length (by omega)] at exact
  have single : ∀ off, off < 7 → part mcs off 1 = [mcs.getD off 0] := by
    intro off inside
    have here : off < mcs.length := by omega
    rw [part, drop_eq_getElem_cons here, take_succ_cons, take_zero,
      getD_eq_getElem?_getD, getElem?_eq_getElem here, Option.getD_some]
  have first : part mcs 1 2 = beBytes 2 0 := by rw [← pair 1 (by decide), initiator]
  have second : part mcs 3 2 = beBytes 2 1003 := by rw [← pair 3 (by decide), channel]
  have split : mcs.take 6 = part mcs 0 1 ++ part mcs 1 2 ++ part mcs 3 2 ++ part mcs 5 1 := by
    rw [part_append_part, part_append_part, part_append_part]
    rfl
  rw [split, first, second, single 0 (by decide), single 5 (by decide), kind, priority]
  rfl

theorem clientInfoData_ok {info : Bytes} (found : clientInfoData mcs = .ok info) :
    mcs.take 6 = sendDataHeader ∧ 22 ≤ info.length ∧ leNat (part info 0 4) = 0x40 ∧
      info.length < 32768 := by
  rw [clientInfoData] at found
  split at found
  · cases found
  rename_i shape
  simp only [not_or, not_not, not_lt] at shape
  obtain ⟨long, kind, initiator, channel, priority⟩ := shape
  split at found
  · cases found
  rename_i n size packed
  simp only at found
  split at found
  · cases found
  rename_i exact
  split at found
  · cases found
  rename_i body
  cases found
  simp only [not_or, not_not, not_lt] at body
  refine ⟨take_header long kind initiator channel priority, body.1, body.2, ?_⟩
  have bound := (perLength_lt packed).1
  rw [length_drop]
  omega

private theorem bind_ok {α β : Type} {x : Except GateFault α} {f : α → Except GateFault β} {b : β}
    (ok : (x >>= f) = .ok b) : ∃ a, x = .ok a ∧ f a = .ok b := by
  cases x with
  | error e => cases ok
  | ok a => exact ⟨a, rfl, ok⟩

private theorem walk_of_walkFields {info : Bytes} (long : 22 ≤ info.length)
    {items : List (Nat × Bytes)} {finish : Nat}
    (walked : walkFields GateFault.authentication .authentication info
      (textWidth (infoFlags info)) fieldNumbers 22 = .ok (items, finish)) :
    ∃ f, walk info = some f ∧ items = placed (textWidth f.flags) 22 f.fields := by
  obtain ⟨texts, laid, rfl, rfl⟩ := walkFields_eq_ok.mp walked
  have five : texts.length = 5 := by
    have lengths := congrArg length laid.lengths
    simpa [fieldNumbers] using lengths
  match texts, five with
  | [domain, userName, password, shell, directory], _ =>
    refine ⟨⟨info.take 8, infoFlags info, domain, userName, password, shell, directory,
      info.drop (22 + ([domain, userName, password, shell, directory].flatMap
        (terminated (textWidth (infoFlags info)))).length)⟩, ?_, rfl⟩
    rw [walk, if_neg (not_lt.mpr long), walkFields_of_laid () () laid]
    rfl

/-- The parser forwards the sanitized form of the PDU it accepts. -/
theorem parseClientInfo_ok {credentials : Credentials} {packet : Bytes}
    (accepted : parseClientInfo mcs = .ok (credentials, packet)) :
    ∃ f, Carries mcs f ∧ packet = infoPacket (sanitized f) := by
  rw [parseClientInfo] at accepted
  obtain ⟨info, found, accepted⟩ := bind_ok accepted
  obtain ⟨header, long, _, _⟩ := clientInfoData_ok found
  simp only at accepted
  split at accepted
  · cases accepted
  obtain ⟨⟨items, finish⟩, walked, accepted⟩ := bind_ok accepted
  obtain ⟨f, walk, rfl⟩ := walk_of_walkFields long walked
  obtain ⟨whole, fits, _, _⟩ := encode_of_walk walk
  obtain ⟨domain, _, accepted⟩ := bind_ok accepted
  obtain ⟨username, _, accepted⟩ := bind_ok accepted
  obtain ⟨password, _, accepted⟩ := bind_ok accepted
  split at accepted
  · cases accepted
  cases accepted
  refine ⟨f, ⟨info, found, walk⟩, ?_⟩
  rw [← stripClientInfoPassword_encode fits header, whole]
  rfl

/-- The PDUs agree on everything but the password and the flags that go with it. -/
structure SameButPassword (f g : ClientInfo) : Prop where
  header : f.header = g.header
  flags : f.flags ||| credentialFlags = g.flags ||| credentialFlags
  domain : f.domain = g.domain
  userName : f.userName = g.userName
  shell : f.shell = g.shell
  directory : f.directory = g.directory
  extra : f.extra = g.extra

/-- The packet is a well-formed frame of a PDU that the console accepts, with the parts of `f` and
    an empty password. -/
structure Sanitary (f : ClientInfo) (packet : Bytes) : Prop where
  frame : part packet 0 2 = [3, 0] ∧ beNat (part packet 2 2) = packet.length ∧
    part packet 4 3 = [2, 0xf0, 0x80]
  body : ∃ body, parseSendData (packet.drop 7) = .ok (1003, body) ∧
    validateClientInfo body = .ok () ∧
    walk body =
      some { f with flags := f.flags &&& ~~~ credentialFlags, password := [] }

theorem SameButPassword.sanitized {g : ClientInfo} (same : SameButPassword f g) :
    sanitized f = sanitized g := by
  have cleared : ∀ flags : UInt32,
      flags &&& ~~~ credentialFlags = (flags ||| credentialFlags) &&& ~~~ credentialFlags := by
    intro flags
    apply UInt32.eq_of_toBitVec_eq
    ext i small
    simp only [UInt32.toBitVec_and, UInt32.toBitVec_or, UInt32.toBitVec_not, BitVec.getElem_and,
      BitVec.getElem_or, BitVec.getElem_not]
    cases credentialFlags.toBitVec[i] <;> simp
  have flags : f.flags &&& ~~~ credentialFlags = g.flags &&& ~~~ credentialFlags := by
    rw [cleared f.flags, cleared g.flags, same.flags]
  simp only [Gateway.sanitized, same.header, flags, same.domain, same.userName, same.shell,
    same.directory, same.extra]

theorem tpkt_frame (small : mcs.length + 7 < 65536) :
    part (tpkt mcs) 0 2 = [3, 0] ∧ beNat (part (tpkt mcs) 2 2) = (tpkt mcs).length ∧
      part (tpkt mcs) 4 3 = [2, 0xf0, 0x80] ∧ (tpkt mcs).drop 7 = mcs := by
  have size : (beBytes 2 (7 + mcs.length)).length = 2 := beBytes_length _ _
  have total : (tpkt mcs).length = 7 + mcs.length := by
    simp only [tpkt, length_append, size, length_cons, length_nil]
    omega
  have length : part (tpkt mcs) 2 2 = beBytes 2 (7 + mcs.length) := by
    refine (part_append_right [3, 0] _ 0 2).trans ?_
    rw [part_append_left _ (by rw [size])]
    exact take_of_length_le (by rw [drop_zero, size])
  have front : ([3, 0] ++ beBytes 2 (7 + mcs.length)).length = 4 := by
    rw [length_append, size]
    rfl
  have behind : (tpkt mcs).drop 4 = [2, 0xf0, 0x80] ++ mcs := by
    rw [tpkt, ← append_assoc, ← front, drop_left]
  refine ⟨rfl, ?_, ?_, ?_⟩
  · rw [length, beNat_beBytes, total, Nat.mod_eq_of_lt (by omega)]
  · rw [part, behind]
    rfl
  · rw [show 7 = 4 + 3 from rfl, ← drop_drop, behind]
    rfl

theorem infoPacket_sanitary (fits : f.Fits) (tls : leNat (f.header.take 4) = 0x40)
    (small : f.encode.length < 32768) :
    Sanitary f (infoPacket (sanitized f)) := by
  have clean : (sanitized f).Fits := fits_without_password fits (textWidth_sanitized f.flags)
  have shorter : (sanitized f).encode.length ≤ f.encode.length := by
    simp only [encode, sanitized, textWidth_sanitized, fields,
      lengthTable_length, length_append, leBytes_length, flatMap_cons,
      flatMap_nil, terminated, length_replicate, length_cons, length_nil]
    omega
  have packed := perBytes_length (sanitized f).encode.length
  have fitsFrame : (sendDataHeader ++ (perBytes (sanitized f).encode.length ++
      (sanitized f).encode)).length + 7 < 65536 := by
    simp only [length_append, packed, sendDataHeader, length_cons, length_nil]
    split <;> omega
  obtain ⟨version, length, x224, inner⟩ := tpkt_frame fitsFrame
  refine ⟨⟨version, length, x224⟩, (sanitized f).encode, ?_, ?_, walk_encode clean⟩
  · rw [infoPacket, inner, parseSendData_packed (by omega)]
  · exact validateClientInfo_encode clean tls

theorem parseClientInfo_sanitary {credentials : Credentials} {packet : Bytes}
    (accepted : parseClientInfo mcs = .ok (credentials, packet)) :
    ∃ f, Carries mcs f ∧ Sanitary f packet ∧ packet = infoPacket (sanitized f) := by
  obtain ⟨f, ⟨info, found, walk⟩, rfl⟩ := parseClientInfo_ok accepted
  obtain ⟨_, long, tls, small⟩ := clientInfoData_ok found
  obtain ⟨whole, fits, _, _⟩ := encode_of_walk walk
  have front : part info 0 4 = f.header.take 4 := by
    rw [← whole, encode, part_append_left _ (by rw [fits.header]; decide)]
    rfl
  exact ⟨f, ⟨info, found, walk⟩, infoPacket_sanitary fits (by rw [← front, tls]) (whole ▸ small), rfl⟩

theorem Carries.unique {g : ClientInfo} (first : Carries mcs f) (second : Carries mcs g) : f = g := by
  obtain ⟨info, found, walk⟩ := first
  obtain ⟨info', found', walk'⟩ := second
  cases found.symm.trans found'
  exact Option.some.inj (walk.symm.trans walk')

/-- For every accepted Client Info PDU the forwarded packet is well formed, passes the console's own
    check, carries everything but the password, and is the same for every accepted PDU that differs
    only in the password and its flags. -/
theorem client_info_hides_password {mcs : Bytes} {credentials : Credentials} {packet : Bytes}
    (accepted : parseClientInfo mcs = .ok (credentials, packet)) :
    ∃ f, Carries mcs f ∧ Sanitary f packet ∧
      ∀ mcs' credentials' packet' f', parseClientInfo mcs' = .ok (credentials', packet') →
        Carries mcs' f' → SameButPassword f f' → packet' = packet := by
  obtain ⟨f, carries, sanitary, shape⟩ := parseClientInfo_sanitary accepted
  refine ⟨f, carries, sanitary, ?_⟩
  intro mcs' credentials' packet' f' accepted' carries' same
  obtain ⟨g, carried, _, shape'⟩ := parseClientInfo_sanitary accepted'
  rw [shape, shape', carried.unique carries', same.sanitized]

/-- A PDU without Unicode: user `a`, password `b`, with the autologon flag. -/
def sampleInfo : Bytes :=
  sendDataHeader ++ [29, 0x40, 0, 0, 0, 0, 0, 0, 0, 8, 0, 0, 0, 0, 0, 1, 0, 1, 0, 0, 0, 0, 0,
    0, 97, 0, 98, 0, 0, 0]

theorem sampleInfo_hides_password :
    ∃ packet f, parseClientInfo sampleInfo = .ok (⟨"a", "b", ""⟩, packet) ∧
      Carries sampleInfo f ∧ Sanitary f packet := by
  have accepted : parseClientInfo sampleInfo = .ok (⟨"a", "b", ""⟩,
      tpkt (sendDataHeader ++ [28, 0x40, 0, 0, 0, 0, 0, 0, 0, 0, 0, 0, 0, 0, 0, 1, 0, 0, 0, 0, 0,
        0, 0, 0, 97, 0, 0, 0, 0])) := by
    decide +kernel
  obtain ⟨f, carries, sanitary, _⟩ := client_info_hides_password accepted
  exact ⟨_, f, accepted, carries, sanitary⟩

end Gokvm.Gateway
