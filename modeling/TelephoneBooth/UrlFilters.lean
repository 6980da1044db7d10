import TelephoneBooth.IpAddress

/-! The two URL filters: `validate_upload_url` looks at the host as text, the audio fetch policy at
the host as the `url` crate parsed it. -/
namespace TelephoneBooth

inductive Host where
  | domain (name : String)
  | ipv4 (ip : Ipv4Addr)
  | ipv6 (ip : Ipv6Addr)
  deriving DecidableEq, Repr

def Host.literal : IpAddr → Host
  | .v4 ip => .ipv4 ip
  | .v6 ip => .ipv6 ip

/- What the filters read of a URL that the `url` crate has parsed. -/
structure ParsedUrl where
  scheme : String
  host : Option Host
  hostStr : Option String
  deriving DecidableEq, Repr

abbrev UrlParser := String → Except String ParsedUrl

/- The crate prints the IP literals it parses so that the standard library reads the same address:
IPv4 bare, IPv6 in brackets. -/
structure UrlParser.Faithful (parse : UrlParser) : Prop where
  ipv4 : ∀ raw url ip, parse raw = .ok url → url.host = some (.ipv4 ip) →
    ∃ text, url.hostStr = some text ∧ Ipv4Addr.parse text.toList = some ip
  ipv6 : ∀ raw url ip, parse raw = .ok url → url.host = some (.ipv6 ip) →
    ∃ text : String, url.hostStr = some ("[" ++ text ++ "]") ∧ Ipv6Addr.parse text.toList = some ip

def toAsciiLowercase (c : Char) : Char :=
  if 'A' ≤ c ∧ c ≤ 'Z' then Char.ofNat (c.toNat + 32) else c

def eqIgnoreAsciiCase (a b : String) : Bool :=
  a.toList.map toAsciiLowercase == b.toList.map toAsciiLowercase

section Ranges

/- 100.64.0.0/10. -/
def inSharedSpace (ip : Ipv4Addr) : Bool := ip.a == 100 && ip.b &&& 0xC0 == 64

/- 192.0.2.0/24, 198.51.100.0/24, 203.0.113.0/24. -/
def inDocumentation (ip : Ipv4Addr) : Bool :=
  (ip.a == 192 && ip.b == 0 && ip.c == 2) || (ip.a == 198 && ip.b == 51 && ip.c == 100) ||
    (ip.a == 203 && ip.b == 0 && ip.c == 113)

/- fc00::/7. -/
def inUniqueLocal (ip : Ipv6Addr) : Bool := ip.a &&& 0xFE00 == 0xFC00

/- fe80::/10. -/
def inLinkLocal (ip : Ipv6Addr) : Bool := ip.a &&& 0xFFC0 == 0xFE80

end Ranges

inductive UploadError where
  | invalidUrl (text : String)
  deriving DecidableEq, Repr

def isIpv4Shared (ip : Ipv4Addr) : Bool := inSharedSpace ip
def isIpv4Documentation (ip : Ipv4Addr) : Bool := inDocumentation ip
def isIpv6UniqueLocal (ip : Ipv6Addr) : Bool := inUniqueLocal ip
def isIpv6LinkLocal (ip : Ipv6Addr) : Bool := inLinkLocal ip

/- `trim_start_matches('[').trim_end_matches(']')`. -/
def trimBrackets (text : List Char) : List Char :=
  ((text.dropWhile (· == '[')).reverse.dropWhile (· == ']')).reverse

def isPrivateOrReservedHost (host : String) : Bool :=
  if eqIgnoreAsciiCase host "localhost" then true
  else
    match Ipv4Addr.parse host.toList with
    | some ip => ip.isLoopback || ip.isPrivate || ip.isLinkLocal || ip.isUnspecified ||
        ip.isBroadcast || isIpv4Shared ip || isIpv4Documentation ip
    | none =>
      match Ipv6Addr.parse (trimBrackets host.toList) with
      | some ip => ip.isLoopback || ip.isUnspecified || isIpv6UniqueLocal ip || isIpv6LinkLocal ip
      | none => false

def validateUploadUrl (parse : UrlParser) (raw : String) (allowedHosts : List String) :
    Except UploadError Unit :=
  match parse raw with
  | .error e => .error (.invalidUrl s!"malformed URL: {e}")
  | .ok parsed =>
    if parsed.scheme ≠ "https" then
      .error (.invalidUrl s!"upload URL must use HTTPS, got scheme '{parsed.scheme}'")
    else
      match parsed.hostStr.filter (· ≠ "") with
      | none => .error (.invalidUrl "upload URL has no host")
      | some host =>
        if isPrivateOrReservedHost host then
          .error (.invalidUrl s!"upload URL host '{host}' resolves to a private/reserved address")
        else if allowedHosts ≠ [] ∧ ¬ allowedHosts.any (eqIgnoreAsciiCase · host) then
          .error (.invalidUrl s!"upload URL host '{host}' is not in the allowed hosts list")
        else .ok ()

inductive UrlPolicyError where
  | invalidUrl (text : String)
  | disallowedScheme (scheme allowed : String)
  | hostNotAllowed (host : String)
  | privateAddress (addr : IpAddr)
  | missingHost
  deriving DecidableEq, Repr

structure AudioFetchPolicy where
  allowHttp : Bool := false
  allowedHosts : List String := []
  allowPrivateHosts : Bool := false

def isSharedAddressSpace (ip : Ipv4Addr) : Bool := inSharedSpace ip
def isDocumentationIpv4 (ip : Ipv4Addr) : Bool := inDocumentation ip
def isMetadataService (ip : Ipv4Addr) : Bool := ip == ⟨169,254,169,254⟩
def isUniqueLocalIpv6 (ip : Ipv6Addr) : Bool := inUniqueLocal ip
def isLinkLocalIpv6 (ip : Ipv6Addr) : Bool := inLinkLocal ip

def isPrivateIpv4 (ip : Ipv4Addr) : Bool :=
  ip.isLoopback || ip.isPrivate || ip.isLinkLocal || ip.isBroadcast || ip.isUnspecified ||
    isSharedAddressSpace ip || isDocumentationIpv4 ip || isMetadataService ip

def isPrivateIpv6 (ip : Ipv6Addr) : Bool :=
  ip.isLoopback || ip.isUnspecified || isUniqueLocalIpv6 ip || isLinkLocalIpv6 ip ||
    ip.toIpv4Mapped.any isPrivateIpv4

def isPrivateOrReserved : IpAddr → Bool
  | .v4 ip => isPrivateIpv4 ip
  | .v6 ip => isPrivateIpv6 ip

def Host.ip : Host → Option IpAddr
  | .ipv4 ip => some (.v4 ip)
  | .ipv6 ip => some (.v6 ip)
  | .domain _ => none

def AudioFetchPolicy.checkResolvedIp (policy : AudioFetchPolicy) (addr : IpAddr) :
    Except UrlPolicyError Unit :=
  if !policy.allowPrivateHosts && isPrivateOrReserved addr then .error (.privateAddress addr) else .ok ()

def AudioFetchPolicy.validate (policy : AudioFetchPolicy) (parse : UrlParser) (raw : String) :
    Except UrlPolicyError ParsedUrl :=
  match parse raw with
  | .error e => .error (.invalidUrl e)
  | .ok parsed =>
    if ¬ (parsed.scheme = "https" ∨ policy.allowHttp ∧ parsed.scheme = "http") then
      .error (.disallowedScheme parsed.scheme (if policy.allowHttp then "https, http" else "https"))
    else
      match parsed.hostStr with
      | none => .error .missingHost
      | some host =>
        if policy.allowedHosts ≠ [] ∧ ¬ policy.allowedHosts.any (eqIgnoreAsciiCase · host) then
          .error (.hostNotAllowed host)
        else if policy.allowPrivateHosts then .ok parsed
        else
          match parsed.host.bind Host.ip with
          | some addr => if isPrivateOrReserved addr then .error (.privateAddress addr) else .ok parsed
          | none => .ok parsed

def embedsPrivate : IpAddr → Bool
  | .v4 _ => false
  | .v6 ip => ip.toIpv4Mapped.any isPrivateIpv4

theorem charOrder {c d : Char} : c ≤ d ↔ c.toNat ≤ d.toNat := Iff.rfl

theorem digitBounds {c : Char} (digit : Reader.isDigit 10 c = true) : 48 ≤ c.toNat ∧ c.toNat ≤ 57 := by
  by_contra other
  have notDigit : ¬ ('0' ≤ c ∧ c ≤ '9') := other
  simp only [Reader.isDigit,Reader.toDigit,if_neg notDigit] at digit
  -- a letter stands for ten or more
  split at digit
  · rename_i lower
    have low : 97 ≤ c.toNat := charOrder.mp lower.1
    rw [if_neg (by omega)] at digit
    cases digit
  · split at digit
    · rename_i upper
      have low : 65 ≤ c.toNat := charOrder.mp upper.1
      rw [if_neg (by omega)] at digit
      cases digit
    · cases digit

theorem dottedLower {c : Char} (dotted : Dotted c) : toAsciiLowercase c ≠ 'l' := by
  rcases dotted with digit | rfl
  · obtain ⟨low,high⟩ := digitBounds digit
    have small : ¬ ('A' ≤ c ∧ c ≤ 'Z') := fun upper => by
      have letter : 65 ≤ c.toNat := charOrder.mp upper.1
      omega
    rw [toAsciiLowercase,if_neg small]
    rintro rfl
    exact absurd high (by decide)
  · decide

theorem notLocalhost {host : String} (first : ∀ c ∈ host.toList.head?, toAsciiLowercase c ≠ 'l') :
    eqIgnoreAsciiCase host "localhost" = false := by
  by_contra same
  have same : host.toList.map toAsciiLowercase = "localhost".toList.map toAsciiLowercase :=
    eq_of_beq (by simpa [eqIgnoreAsciiCase] using same)
  cases text : host.toList with
  | nil =>
    rw [text] at same
    exact absurd same (by decide)
  | cons c rest =>
    rw [text] at same first
    exact first c rfl (List.cons.inj same).1

section Hosts

theorem metadataLinkLocal (ip : Ipv4Addr) (meta_ : isMetadataService ip = true) :
    ip.isLinkLocal = true := by
  rw [eq_of_beq meta_]
  rfl

theorem ipv4Host {text : String} {ip : Ipv4Addr} (parsed : Ipv4Addr.parse text.toList = some ip) :
    isPrivateOrReservedHost text = isPrivateIpv4 ip := by
  have plain : eqIgnoreAsciiCase text "localhost" = false :=
    notLocalhost fun c head => dottedLower (ipv4Chars parsed c (List.mem_of_mem_head? head))
  rw [isPrivateOrReservedHost,plain,parsed,isPrivateIpv4]
  simp only [Bool.false_eq_true,if_false,isIpv4Shared,isSharedAddressSpace,isIpv4Documentation,
    isDocumentationIpv4]
  cases known : isMetadataService ip with
  | true => simp [metadataLinkLocal ip known]
  | false =>
    rw [Bool.or_false]
    ac_rfl

theorem bracketFree {c : Char} (plain : AddressChar c) : c ≠ '[' ∧ c ≠ ']' := by
  constructor
  · rintro rfl
    exact absurd plain (by unfold AddressChar Dotted; decide)
  · rintro rfl
    exact absurd plain (by unfold AddressChar Dotted; decide)

theorem trimAround {text : List Char} (plain : ∀ c ∈ text, AddressChar c) :
    trimBrackets ('[' :: text ++ [']']) = text := by
  have whole (bracket : Char) (xs : List Char) (none_ : ∀ c ∈ xs, c ≠ bracket) :
      xs.dropWhile (· == bracket) = xs := by
    cases xs with
    | nil => rfl
    | cons c rest => simp [none_ c List.mem_cons_self]
  have noOpen : ∀ c ∈ text ++ [']'], c ≠ '[' := fun c mem =>
    (List.mem_append.mp mem).elim (fun here => (bracketFree (plain c here)).1)
      fun last => by rw [List.mem_singleton.mp last]; decide
  have noClose : ∀ c ∈ text.reverse, c ≠ ']' := fun c mem =>
    (bracketFree (plain c (List.mem_reverse.mp mem))).2
  rw [trimBrackets,List.cons_append,List.dropWhile_cons_of_pos (by rfl),whole '[' _ noOpen,
    List.reverse_append,List.reverse_singleton,List.singleton_append,
    List.dropWhile_cons_of_pos (by rfl),whole ']' _ noClose,List.reverse_reverse]

theorem ipv6Host {text : String} {ip : Ipv6Addr} (parsed : Ipv6Addr.parse text.toList = some ip) :
    isPrivateOrReservedHost ("[" ++ text ++ "]") =
      (ip.isLoopback || ip.isUnspecified || inUniqueLocal ip || inLinkLocal ip) := by
  have shape : ("[" ++ text ++ "]").toList = '[' :: text.toList ++ [']'] := by
    simp [String.toList_append]
  have plain : eqIgnoreAsciiCase ("[" ++ text ++ "]") "localhost" = false :=
    notLocalhost fun c head => by
      rw [shape] at head
      cases head
      decide
  have noIpv4 : Ipv4Addr.parse ("[" ++ text ++ "]").toList = none := by
    rw [shape]
    cases parsed4 : Ipv4Addr.parse ('[' :: text.toList ++ [']']) with
    | none => rfl
    | some ip =>
      have dotted := ipv4Chars parsed4 '[' (by simp)
      exact absurd rfl (bracketFree (.inl dotted)).1
  rw [isPrivateOrReservedHost,plain,noIpv4,shape,trimAround (ipv6Chars parsed),parsed]
  rfl

theorem mappedOutside {ip : Ipv6Addr} {inner : Ipv4Addr} (mapped : ip.toIpv4Mapped = some inner) :
    (ip.isLoopback || ip.isUnspecified || inUniqueLocal ip || inLinkLocal ip) = false := by
  unfold Ipv6Addr.toIpv4Mapped at mapped
  split at mapped
  · rename_i zeros
    obtain ⟨a,b,c,d,e,f⟩ := zeros
    obtain ⟨_,_,_,_,_,_,g,h⟩ := ip
    simp only at a b c d e f
    subst a b c d e f
    simp [Ipv6Addr.isLoopback,Ipv6Addr.isUnspecified,inUniqueLocal,inLinkLocal]
  · cases mapped

end Hosts

section Filters
variable {parse : UrlParser} {raw : String} {url : ParsedUrl}

theorem uploadAccepts {host : String} (parsed : parse raw = .ok url) (https : url.scheme = "https")
    (named : url.hostStr = some host) (nonempty : host ≠ "") :
    validateUploadUrl parse raw [] = .ok () ↔ isPrivateOrReservedHost host = false := by
  have kept : url.hostStr.filter (· ≠ "") = some host := by simp [named,nonempty]
  simp only [validateUploadUrl,parsed,https,kept]
  cases isPrivateOrReservedHost host <;> simp

theorem fetchAccepts {host : String} {addr : IpAddr} (parsed : parse raw = .ok url)
    (https : url.scheme = "https") (named : url.hostStr = some host)
    (literal : url.host = some (.literal addr)) :
    ({} : AudioFetchPolicy).validate parse raw = .ok url ↔ isPrivateOrReserved addr = false := by
  have ip : url.host.bind Host.ip = some addr := by
    rw [literal]
    cases addr <;> rfl
  simp only [AudioFetchPolicy.validate,parsed,https,named,ip]
  cases isPrivateOrReserved addr <;> simp

theorem filtersAgree (faithful : parse.Faithful) {addr : IpAddr} (parsed : parse raw = .ok url)
    (https : url.scheme = "https") (literal : url.host = some (.literal addr)) :
    (validateUploadUrl parse raw [] = .ok () →
      ({} : AudioFetchPolicy).validate parse raw = .ok url) ↔ embedsPrivate addr = false := by
  cases addr with
  | v4 ip =>
    obtain ⟨text,named,printed⟩ := faithful.ipv4 raw url ip parsed literal
    have nonempty : text ≠ "" := by
      rintro rfl
      cases printed
    rw [uploadAccepts parsed https named nonempty,fetchAccepts parsed https named literal,
      ipv4Host printed]
    exact ⟨fun _ => rfl,fun _ => id⟩
  | v6 ip =>
    obtain ⟨text,named,printed⟩ := faithful.ipv6 raw url ip parsed literal
    have nonempty : "[" ++ text ++ "]" ≠ "" := fun empty_ => by
      have := congrArg String.toList empty_
      simp at this
    rw [uploadAccepts parsed https named nonempty,fetchAccepts parsed https named literal,
      ipv6Host printed]
    show _ → (ip.isLoopback || ip.isUnspecified || inUniqueLocal ip || inLinkLocal ip ||
      ip.toIpv4Mapped.any isPrivateIpv4) = false ↔ ip.toIpv4Mapped.any isPrivateIpv4 = false
    cases mapped : ip.toIpv4Mapped with
    | none => simp
    | some inner => simp [mappedOutside mapped]

end Filters

section Examples

def knows (raw : String) (url : ParsedUrl) : UrlParser := fun text =>
  if text = raw then .ok url else .error "relative URL without a base"

theorem knowsCases {raw text : String} {url parsed : ParsedUrl} (known : knows raw url text = .ok parsed) :
    parsed = url := by
  unfold knows at known
  split at known <;> cases known
  rfl

theorem knowsIpv4 {raw text : String} {ip : Ipv4Addr} (printed : Ipv4Addr.parse text.toList = some ip) :
    (knows raw ⟨"https",some (.ipv4 ip),some text⟩).Faithful where
  ipv4 := by
    rintro other url ip' known host
    obtain rfl := knowsCases known
    cases host
    exact ⟨text,rfl,printed⟩
  ipv6 := by
    rintro other url ip' known host
    obtain rfl := knowsCases known
    cases host

theorem knowsIpv6 {raw text : String} {ip : Ipv6Addr} (printed : Ipv6Addr.parse text.toList = some ip) :
    (knows raw ⟨"https",some (.ipv6 ip),some ("[" ++ text ++ "]")⟩).Faithful where
  ipv4 := by
    rintro other url ip' known host
    obtain rfl := knowsCases known
    cases host
  ipv6 := by
    rintro other url ip' known host
    obtain rfl := knowsCases known
    cases host
    exact ⟨text,rfl,printed⟩

theorem publicLiteralAgrees :
    let parse := knows "https://93.184.216.34/up"
      ⟨"https",some (.ipv4 ⟨93,184,216,34⟩),some "93.184.216.34"⟩
    validateUploadUrl parse "https://93.184.216.34/up" [] = .ok () →
      ({} : AudioFetchPolicy).validate parse "https://93.184.216.34/up" =
        .ok ⟨"https",some (.ipv4 ⟨93,184,216,34⟩),some "93.184.216.34"⟩ :=
  (@filtersAgree _ _ _ (knowsIpv4 (by decide +kernel)) (.v4 ⟨93,184,216,34⟩) (if_pos rfl) rfl rfl).mpr rfl

/- 10.0.0.1 as an IPv4-mapped IPv6 literal, as the crate prints it. -/
theorem mappedSlipsThrough :
    let mapped : Ipv6Addr := ⟨0,0,0,0,0,0xFFFF,0x0A00,1⟩
    let raw := "https://[::ffff:10.0.0.1]/blob"
    let parse := knows raw ⟨"https",some (.ipv6 mapped),some ("[" ++ "::ffff:a00:1" ++ "]")⟩
    parse.Faithful ∧ validateUploadUrl parse raw [] = .ok () ∧
      ({} : AudioFetchPolicy).validate parse raw = .error (.privateAddress (.v6 mapped)) := by
  refine ⟨knowsIpv6 (by decide +kernel),?_,?_⟩
  · refine (uploadAccepts (if_pos rfl) rfl rfl (by decide)).mpr ?_
    decide +kernel
  · rfl

end Examples

end TelephoneBooth
