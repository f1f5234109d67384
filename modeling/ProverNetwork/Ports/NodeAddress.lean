import ProverNetwork.Verified.PyText

/-!
# The addresses a node may register

The hub dials the two addresses of a node, so it takes only those whose host is
public or allowlisted.  Each check answers with a text, or with nothing where
the address is fine.

What an IP address is and how a URL is parsed are left to the libraries.

## Main results

* `splitHostPort_ok` — the two forms of an address and a port.
* `validateGrpcAddress_eq_none`, `validateHttpAddress_eq_none` — what an
  accepted address has.
-/

namespace ProverNetwork.Ports.NodeAddress

open ProverNetwork.Verified.PyText

/-- What `urlparse` returns, with the properties read from it; `port` raises
where the text of the port is no port. -/
structure ParseResult where
  scheme : String
  hostname : Option String
  username : Option String
  password : Option String
  path : String
  query : String
  fragment : String
  port : Except String (Option Int)

/-- `str.lower`, `repr` of a string, `urllib.parse` and `ipaddress`; the texts
are those of the exceptions. -/
structure Libs (Ip Net : Type) where
  lower : String → String
  repr : String → String
  urlparse : String → Except String ParseResult
  ip_address : String → Option Ip
  contains : Net → Ip → Bool
  is_private : Ip → Bool
  is_loopback : Ip → Bool
  is_link_local : Ip → Bool
  is_multicast : Ip → Bool
  is_reserved : Ip → Bool
  is_unspecified : Ip → Bool

/-- `_ALLOWED_NODE_CIDRS` and `_ALLOWED_NODE_HOSTS`. -/
structure Allowed (Net : Type) where
  cidrs : List Net
  hosts : List String

section Checks

variable {Ip Net : Type} (libs : Libs Ip Net) (allowed : Allowed Net)

/-- `host.strip().lower().rstrip(".")`. -/
def normalize (host : String) : String := rstrip '.' (libs.lower (strip host))

/-- One turn of the loop of `_hostname_allowed`. -/
def hostMatches (normalized candidate : String) : Bool :=
  if candidate = "" then false
  else if "*.".toList.isPrefixOf candidate.toList then
    (candidate.toList.drop 1).isSuffixOf normalized.toList
  else if ".".toList.isPrefixOf candidate.toList then
    candidate.toList.isSuffixOf normalized.toList
  else normalized = candidate

/-- `_hostname_allowed`. -/
def hostnameAllowed (hostname : String) : Bool :=
  allowed.hosts.any (fun host => hostMatches (normalize libs hostname) (normalize libs host))

/-- The address is on no list of special addresses. -/
def isPublic (ip : Ip) : Bool :=
  !([libs.is_private ip, libs.is_loopback ip, libs.is_link_local ip, libs.is_multicast ip,
    libs.is_reserved ip, libs.is_unspecified ip].any id)

/-- `_host_allowed`. -/
def hostAllowed (host : String) : Bool :=
  let normalized := normalize libs host
  if normalized = "" then false
  else
    match libs.ip_address normalized with
    | none => hostnameAllowed libs allowed normalized
    | some ip => if allowed.cidrs.any (fun net => libs.contains net ip) then true
        else isPublic libs ip

/-- `_split_host_port`, with the text of the `ValueError`. -/
def splitHostPort (value : String) : Except String (String × String) :=
  let target := stripWhile isSpace value.toList
  if ['['].isPrefixOf target then
    match partition ']' target with
    | some (front, ':' :: port_text) =>
        .ok (String.ofList (front.drop 1), String.ofList port_text)
    | _ => .error "address must use [host]:port for IPv6"
  else
    match rpartition ':' target with
    | none => .error "address must be host:port"
    | some (host, port_text) =>
        if host = [] then .error "address must be host:port"
        else .ok (String.ofList host, String.ofList port_text)

/-- `_validate_grpc_address`. -/
def validateGrpcAddress (address : String) : Option String :=
  match splitHostPort address with
  | .error error => some ("invalid grpc_info: " ++ error)
  | .ok (host, port_text) =>
      match int port_text with
      | .error error => some ("invalid grpc_info: " ++ error.text libs.repr port_text)
      | .ok port =>
          if port < 1 ∨ port > 65535 then some "invalid grpc_info: port out of range"
          else if hostAllowed libs allowed host then none
          else some "invalid grpc_info: host is not allowlisted"

/-- A string that is there and not empty. -/
def nonEmpty : Option String → Bool
  | none => false
  | some s => s ≠ ""

/-- `parsed.port or (443 if parsed.scheme == "https" else 80)`. -/
def portOrDefault (scheme : String) : Option Int → Int
  | some port => if port ≠ 0 then port else if scheme = "https" then 443 else 80
  | none => if scheme = "https" then 443 else 80

/-- `_validate_http_address`. -/
def validateHttpAddress (address : String) : Option String :=
  match libs.urlparse (strip address) with
  | .error error => some ("invalid http_info: " ++ error)
  | .ok parsed =>
      if parsed.scheme ≠ "http" ∧ parsed.scheme ≠ "https" then
        some "invalid http_info: scheme must be http or https"
      else if !nonEmpty parsed.hostname then some "invalid http_info: hostname is required"
      else if nonEmpty parsed.username || nonEmpty parsed.password then
        some "invalid http_info: userinfo is not allowed"
      else if (parsed.path ≠ "" ∧ parsed.path ≠ "/") ∨ parsed.query ≠ "" ∨
          parsed.fragment ≠ "" then
        some "invalid http_info: path/query/fragment is not allowed"
      else
        match parsed.port with
        | .error error => some ("invalid http_info: " ++ error)
        | .ok port =>
            let port := portOrDefault parsed.scheme port
            if port < 1 ∨ port > 65535 then some "invalid http_info: port out of range"
            else if hostAllowed libs allowed (parsed.hostname.getD "") then none
            else some "invalid http_info: host is not allowlisted"

end Checks

/-! ## What an accepted address has -/

/-- **The two forms**, up to white space around them. -/
theorem splitHostPort_ok {value host port_text : String}
    (h : splitHostPort value = .ok (host, port_text)) :
    (stripWhile isSpace value.toList = '[' :: host.toList ++ ']' :: ':' :: port_text.toList ∧
        ']' ∉ host.toList) ∨
      (['['].isPrefixOf (stripWhile isSpace value.toList) = false ∧
        stripWhile isSpace value.toList = host.toList ++ ':' :: port_text.toList ∧
        ':' ∉ port_text.toList ∧ host ≠ "") := by
  unfold splitHostPort at h
  dsimp only at h
  generalize stripWhile isSpace value.toList = target at h
  split at h
  next hbracket =>
    split at h
    next front port hpartition =>
      simp only [Except.ok.injEq, Prod.mk.injEq] at h
      obtain ⟨rfl, rfl⟩ := h
      obtain ⟨hsplit, hmem⟩ := partition_eq_some hpartition
      refine Or.inl ?_
      obtain ⟨rest, rfl⟩ := List.isPrefixOf_iff_prefix.1 hbracket
      cases front with
      | nil => cases hsplit
      | cons c front =>
          simp only [List.cons_append, List.nil_append, List.cons.injEq] at hsplit
          obtain ⟨rfl, rfl⟩ := hsplit
          refine ⟨by simp, ?_⟩
          rw [List.mem_cons, not_or] at hmem
          simpa using hmem.2
    next => cases h
  next hplain =>
    split at h
    next => cases h
    next front port hrpartition =>
      split at h
      next => cases h
      next hhost =>
        simp only [Except.ok.injEq, Prod.mk.injEq] at h
        obtain ⟨rfl, rfl⟩ := h
        obtain ⟨hsplit, hmem⟩ := rpartition_eq_some hrpartition
        refine Or.inr ⟨Bool.not_eq_true _ ▸ hplain, by simpa using hsplit, by simpa using hmem, ?_⟩
        intro hempty
        exact hhost (by simpa using congrArg String.toList hempty)

section Accepted

variable {Ip Net : Type} {libs : Libs Ip Net} {allowed : Allowed Net}

/-- A check that an accepted value passes. -/
theorem checked_eq_none {p : Prop} [Decidable p] {error : String} {rest : Option String} :
    (if p then some error else rest) = none ↔ ¬p ∧ rest = none := by
  by_cases h : p <;> simp [h]

theorem allowed_eq_none {p : Prop} [Decidable p] {error : String} :
    (if p then none else some error) = none ↔ p := by
  by_cases h : p <;> simp [h]

/-- An accepted gRPC address has a port in range and an allowed host. -/
theorem validateGrpcAddress_eq_none {address : String} :
    validateGrpcAddress libs allowed address = none ↔
      ∃ host port_text port, splitHostPort address = .ok (host, port_text) ∧
        int port_text = .ok port ∧ 1 ≤ port ∧ port ≤ 65535 ∧
        hostAllowed libs allowed host = true := by
  unfold validateGrpcAddress
  cases hsplit : splitHostPort address with
  | error e => simp
  | ok pair =>
      obtain ⟨host, port_text⟩ := pair
      dsimp only
      cases hint : int port_text with
      | error e => simp [hint]
      | ok port =>
          dsimp only
          rw [checked_eq_none, allowed_eq_none, not_or, Int.not_lt, Int.not_lt]
          constructor
          · rintro ⟨⟨hlow, hhigh⟩, hhost⟩
            exact ⟨host, port_text, port, rfl, hint, hlow, hhigh, hhost⟩
          · rintro ⟨host', text, port', heq, hint', hlow, hhigh, hhost⟩
            cases heq
            cases hint.symm.trans hint'
            exact ⟨⟨hlow, hhigh⟩, hhost⟩

theorem nonEmpty_eq_true {text : Option String} :
    nonEmpty text = true ↔ ∃ s, text = some s ∧ s ≠ "" := by
  cases text with
  | none => simp [nonEmpty]
  | some s => simp [nonEmpty]

theorem eq_or_eq {s a b : String} (h : ¬ (s ≠ a ∧ s ≠ b)) : s = a ∨ s = b :=
  (Decidable.not_and_iff_or_not.1 h).imp not_not.1 not_not.1

/-- An accepted HTTP address has no more than a scheme, a port in range and an
allowed host. -/
theorem validateHttpAddress_eq_none {address : String} :
    validateHttpAddress libs allowed address = none ↔
      ∃ parsed hostname port, libs.urlparse (strip address) = .ok parsed ∧
        (parsed.scheme = "http" ∨ parsed.scheme = "https") ∧
        parsed.hostname = some hostname ∧ hostname ≠ "" ∧
        nonEmpty parsed.username = false ∧ nonEmpty parsed.password = false ∧
        (parsed.path = "" ∨ parsed.path = "/") ∧ parsed.query = "" ∧ parsed.fragment = "" ∧
        parsed.port = .ok port ∧ 1 ≤ portOrDefault parsed.scheme port ∧
        portOrDefault parsed.scheme port ≤ 65535 ∧
        hostAllowed libs allowed hostname = true := by
  unfold validateHttpAddress
  cases hparse : libs.urlparse (strip address) with
  | error e => simp
  | ok parsed =>
      dsimp only
      rw [checked_eq_none, checked_eq_none, checked_eq_none, checked_eq_none]
      constructor
      · rintro ⟨hscheme, hhost, huser, hpath, hport⟩
        obtain ⟨hostname, hhostname, hne⟩ := nonEmpty_eq_true.1 (by simpa using hhost)
        simp only [Bool.or_eq_true, not_or, Bool.not_eq_true] at huser
        obtain ⟨hplain, hrest⟩ := not_or.1 hpath
        obtain ⟨hquery, hfragment⟩ := not_or.1 hrest
        cases hparsed : parsed.port with
        | error e => simp [hparsed] at hport
        | ok port =>
            rw [hparsed] at hport
            dsimp only at hport
            rw [checked_eq_none, allowed_eq_none, not_or, Int.not_lt, Int.not_lt, hhostname] at hport
            exact ⟨parsed, hostname, port, rfl, eq_or_eq hscheme, hhostname, hne, huser.1,
              huser.2, eq_or_eq hplain, not_not.1 hquery, not_not.1 hfragment, hparsed,
              hport.1.1, hport.1.2, hport.2⟩
      · rintro ⟨parsed', hostname, port, heq, hscheme, hhostname, hhost, huser, hpassword, hpath,
          hquery, hfragment, hport, hlow, hhigh, hallowed⟩
        cases heq
        have hnonempty := nonEmpty_eq_true.2 ⟨hostname, hhostname, hhost⟩
        refine ⟨fun hboth => hscheme.elim hboth.1 hboth.2, by simp [hnonempty],
          by simp [huser, hpassword], ?_, ?_⟩
        · rintro (hboth | hquery' | hfragment')
          · exact hpath.elim hboth.1 hboth.2
          · exact hquery' hquery
          · exact hfragment' hfragment
        · rw [hport]
          dsimp only
          rw [checked_eq_none, allowed_eq_none, not_or, Int.not_lt, Int.not_lt, hhostname]
          exact ⟨⟨hlow, hhigh⟩, hallowed⟩

end Accepted

/-- A table of one public address. -/
def onePublic : Libs Unit Unit where
  lower := id
  repr := id
  urlparse := fun _ => .error "not a URL"
  ip_address := fun host => if host = "93.184.216.34" then some () else none
  contains := fun _ _ => false
  is_private := fun _ => false
  is_loopback := fun _ => false
  is_link_local := fun _ => false
  is_multicast := fun _ => false
  is_reserved := fun _ => false
  is_unspecified := fun _ => false

end ProverNetwork.Ports.NodeAddress
