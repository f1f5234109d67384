import ProverNetwork.Ports.NodeAddress
import ProverNetwork.Verified.PyNumeral
import ProverNetwork.Verified.UrlParse

/-!
# The HTTP endpoint the hub dials

`_validate_http_address` parses the trimmed address and looks at the parts; `HttpServer`
puts a path behind the address as it came.  An empty query, an empty fragment, a slash,
parameters and a port zero pass the check, and each of them changes what the longer text
parses to.

## Main results

* `dials_iff` — the accepted addresses for which the URL with a path behind it parses to
  what was checked.
* `endpoint_checked_iff` — the same for the two URLs of `HttpServer`.
-/

namespace ProverNetwork.Ports.NodeAddress

open ProverNetwork.Verified ProverNetwork.Verified.PyText ProverNetwork.Verified.UrlParse

/-- The result of `urlparse`, as the properties read it. -/
def toResult (env : Env) (r : UrlParse.ParseResult) : ParseResult where
  scheme := String.ofList r.scheme
  hostname := (r.hostname env).map String.ofList
  username := (userinfo r.netloc).1.map String.ofList
  password := (userinfo r.netloc).2.map String.ofList
  path := String.ofList r.path
  query := String.ofList r.query
  fragment := String.ofList r.fragment
  port := r.port env

/-- The libraries of the hub, with Python's own `urlparse`. -/
def withUrlparse {Ip Net : Type} (libs : Libs Ip Net) (env : Env) : Libs Ip Net :=
  { libs with urlparse := fun s => (urlparse env s.toList).map (toResult env) }

/-- `HttpServer`, as far as its URLs go. -/
structure HttpServer where
  address : String

/-- The URL of `ping_details`. -/
def HttpServer.pingUrl (server : HttpServer) : String := server.address ++ "/ping"

/-- The URL of `push_task_details`. -/
def HttpServer.pushTaskUrl (server : HttpServer) : String := server.address ++ "/push_task"

/-- The port a URL stands for. -/
def effectivePort (scheme : String) : Option Int → Int
  | some port => port
  | none => if scheme = "https" then 443 else 80

/-- The URL parses to the host and the port that were checked for the address, and to
`path` with nothing behind it. -/
def Dials {Ip Net : Type} (libs : Libs Ip Net) (address url path : String) : Prop :=
  ∃ checked dialled port dialledPort, libs.urlparse (strip address) = .ok checked ∧
    libs.urlparse url = .ok dialled ∧ dialled.hostname = checked.hostname ∧
    checked.port = .ok port ∧ dialled.port = .ok dialledPort ∧
    effectivePort dialled.scheme dialledPort = portOrDefault checked.scheme port ∧
    1 ≤ effectivePort dialled.scheme dialledPort ∧
    effectivePort dialled.scheme dialledPort ≤ 65535 ∧
    dialled.path = path ∧ dialled.query = "" ∧ dialled.fragment = ""

/-- The authority of a text and what stands behind it. -/
def authority (url : Text) : Text × Text := splitNetloc (splitScheme (clean url)).2

/-- Nothing but a scheme and an authority is written in the address, with white space
around it that `urlparse` drops as well, and no port zero. -/
structure PlainEndpoint (env : Env) (address : String) : Prop where
  front : ∀ c ∈ leading isSpace address.toList, c.toNat ≤ 0x20
  back : ∀ c ∈ trailing isSpace address.toList, isRemoved c = true
  bare : (authority (stripWhile isSpace address.toList)).2 = []
  port : portNumber env (hostinfo (authority (stripWhile isSpace address.toList)).1).2 ≠
    .ok (some 0)

/-! ## White space -/

/-- White space has no meaning in a URL. -/
theorem space_meaningless {c : Char} (h : isSpace c = true) :
    c ≠ '@' ∧ c ≠ '[' ∧ c ≠ ']' ∧ c ≠ ':' ∧ c ≠ '%' ∧ c.isDigit = false ∧ c.isAlpha = false ∧
      isDelim c = false := by
  have hall : spaceCodes.all (fun n => decide (Char.ofNat n ≠ '@' ∧ Char.ofNat n ≠ '[' ∧
      Char.ofNat n ≠ ']' ∧ Char.ofNat n ≠ ':' ∧ Char.ofNat n ≠ '%' ∧
      (Char.ofNat n).isDigit = false ∧ (Char.ofNat n).isAlpha = false ∧
      isDelim (Char.ofNat n) = false)) = true := by
    decide +kernel
  have hc := of_decide_eq_true (List.all_eq_true.1 hall c.toNat (mem_spaceCodes h))
  rwa [Char.ofNat_toNat] at hc

section Address

variable {env : Env} {front text back path : Text}

/-- What `urlparse` keeps of the white space behind the address. -/
def kept (back : Text) : Text := back.filter (fun c => !isRemoved c)

theorem kept_meaningless (hback : ∀ c ∈ back, isSpace c = true) : Meaningless (kept back) := by
  intro c hc
  have hspace := space_meaningless (hback c (List.mem_filter.1 hc).1)
  exact ⟨hspace.1, hspace.2.1, hspace.2.2.1, hspace.2.2.2.1, hspace.2.2.2.2.1,
    hspace.2.2.2.2.2.1⟩

/-- Behind white space that `urlparse` does not drop there is no authority. -/
theorem authority_of_front (hfront : ∀ c ∈ front, isSpace c = true)
    (hlarge : ∃ c ∈ front, ¬ c.toNat ≤ 0x20) (rest : Text) :
    (authority (front ++ rest)).1 = [] := by
  obtain ⟨c, hc, hbig⟩ := hlarge
  have hsplit := List.takeWhile_append_dropWhile (p := fun c => decide (c.toNat ≤ 0x20))
    (l := front)
  cases hdrop : front.dropWhile (fun c => decide (c.toNat ≤ 0x20)) with
  | nil =>
      rw [hdrop, List.append_nil] at hsplit
      rw [← hsplit] at hc
      exact absurd (of_decide_eq_true (List.all_eq_true.1 List.all_takeWhile c hc)) hbig
  | cons d tail =>
      have hd : decide (d.toNat ≤ 0x20) = false :=
        head?_dropWhile (show (front.dropWhile (fun c => decide (c.toNat ≤ 0x20))).head? = some d by
          rw [hdrop]; rfl)
      have hlarge : ¬ d.toNat ≤ 0x20 := of_decide_eq_false hd
      have hmem : d ∈ front := by
        rw [← hsplit, hdrop]
        simp
      have hspace := space_meaningless (hfront d hmem)
      have hclean : clean (front ++ rest) =
          d :: (tail ++ rest).filter (fun c => !isRemoved c) := by
        rw [← hsplit, hdrop, List.append_assoc, List.cons_append]
        rw [clean_of_small (fun x hx =>
          of_decide_eq_true (List.all_eq_true.1 List.all_takeWhile x hx))]
        exact clean_cons hlarge (tail ++ rest)
      rw [authority, hclean, splitScheme_of_not_alpha hspace.2.2.2.2.2.2.1]
      by_contra hnetloc
      obtain ⟨n, rest', hurl, -⟩ := exists_of_netloc hnetloc
      have hslash : d = '/' := (List.cons.inj hurl).1
      rw [hslash] at hspace
      exact absurd hspace.2.2.2.2.2.2.2 (by decide)

/-- A plain path without tabs and line breaks. -/
structure CleanPath (path : Text) : Prop extends PlainPath path where
  kept : ∀ c ∈ path, isRemoved c = false

theorem CleanPath.of_all (h : PlainPath path) (hkept : path.all (fun c => !isRemoved c) = true) :
    CleanPath path := by
  refine ⟨h, ?_⟩
  intro c hc
  have hc' := List.all_eq_true.1 hkept c hc
  simpa using hc'

theorem CleanPath.delim (h : CleanPath path) : ∃ d tail, path = d :: tail ∧ isDelim d = true := by
  obtain ⟨name, hname, -⟩ := h.segment
  exact ⟨'/', name, hname, by decide⟩

/-- The scheme of the longer text is the one of the address. -/
theorem splitScheme_address (hfront : ∀ c ∈ front, c.toNat ≤ 0x20)
    (hscheme : (splitScheme (clean text)).1 ≠ []) (hpath : CleanPath path) :
    splitScheme (clean (front ++ (text ++ (back ++ path)))) =
      ((splitScheme (clean text)).1, (splitScheme (clean text)).2 ++ (kept back ++ path)) := by
  have hlarge : ∃ c ∈ text, ¬ c.toNat ≤ 0x20 := by
    by_contra hnone
    apply hscheme
    have hsmall : ∀ c ∈ text, c.toNat ≤ 0x20 := by
      intro c hc
      by_contra hbig
      exact hnone ⟨c, hc, hbig⟩
    have hclean : clean text = [] := by
      have happend := clean_of_small hsmall []
      rwa [List.append_nil] at happend
    rw [hclean]
    rfl
  have hsame : path.filter (fun c => !isRemoved c) = path := by
    apply List.filter_eq_self.2
    intro c hc
    rw [hpath.kept c hc]
    rfl
  rw [clean_of_small hfront, clean_append hlarge, List.filter_append, hsame]
  exact splitScheme_append hscheme (kept back ++ path)

/-- The authority of the longer text. -/
theorem authority_address (hfront : ∀ c ∈ front, c.toNat ≤ 0x20)
    (hback : ∀ c ∈ back, isSpace c = true) (hscheme : (splitScheme (clean text)).1 ≠ [])
    (hnetloc : (authority text).1 ≠ []) (hpath : CleanPath path) :
    authority (front ++ (text ++ (back ++ path))) =
      if (authority text).2 = [] then ((authority text).1 ++ kept back, path)
      else ((authority text).1, (authority text).2 ++ (kept back ++ path)) := by
  obtain ⟨n, rest, hurl, hsplit, hn, hrest⟩ := exists_of_netloc hnetloc
  have hauthority : authority text = (n, rest) := hsplit
  have hblanks : ∀ c ∈ kept back, isDelim c = false := by
    intro c hc
    exact (space_meaningless (hback c (List.mem_filter.1 hc).1)).2.2.2.2.2.2.2
  rw [hauthority, authority, splitScheme_address hfront hscheme hpath, hurl]
  exact splitNetloc_append hn hrest hblanks hpath.delim

/-- A plain text and a path: the authority of the text, and the path. -/
theorem urlparse_plain {r : UrlParse.ParseResult} (hparse : urlparse env text = .ok r)
    (hscheme : r.scheme ≠ []) (hnetloc : r.netloc ≠ [])
    (hfront : ∀ c ∈ front, c.toNat ≤ 0x20) (hback : ∀ c ∈ back, isSpace c = true)
    (hkept : kept back = []) (hbare : (authority text).2 = []) (hpath : CleanPath path) :
    urlparse env (front ++ (text ++ (back ++ path))) =
      .ok ⟨r.scheme, r.netloc, path, [], [], []⟩ := by
  obtain ⟨hbrackets, hcheck, hschemes, hnetlocs, -⟩ := urlparse_eq_ok_iff.1 hparse
  rw [hschemes] at hscheme
  have hne : (authority text).1 ≠ [] := hnetlocs ▸ hnetloc
  have hurl := authority_address hfront hback hscheme hne hpath
  rw [if_pos hbare, hkept, List.append_nil] at hurl
  have hsplit : splitNetloc (splitScheme (clean (front ++ (text ++ (back ++ path))))).2 =
      (r.netloc, path) := by
    rw [hnetlocs]
    exact hurl
  rw [urlparse_eq_ok_iff, hsplit, splitScheme_address hfront hscheme hpath, hschemes]
  rw [← hnetlocs] at hbrackets hcheck
  exact ⟨hbrackets, hcheck, rfl, rfl, (splitTarget_plain hpath.toPlainPath _).symm⟩

/-- White space before a text with a host is dropped by `urlparse` too. -/
theorem front_small {rest : Text} (hfront : ∀ c ∈ front, isSpace c = true)
    (hhost : (hostinfo (authority (front ++ rest)).1).1 ≠ []) : ∀ c ∈ front, c.toNat ≤ 0x20 := by
  intro c hc
  by_contra hbig
  apply hhost
  rw [authority_of_front hfront ⟨c, hc, hbig⟩ rest]
  rfl

/-- Where the path of the longer text is the path behind it, nothing stood there before. -/
theorem bare_of_target {r' : UrlParse.ParseResult}
    (hlong : urlparse env (front ++ (text ++ (back ++ path))) = .ok r')
    (hfront : ∀ c ∈ front, c.toNat ≤ 0x20) (hback : ∀ c ∈ back, isSpace c = true)
    (hscheme : (splitScheme (clean text)).1 ≠ []) (hnetloc : (authority text).1 ≠ [])
    (hpath : CleanPath path) (htarget : r'.path = path ∧ r'.query = [] ∧ r'.fragment = []) :
    (authority text).2 = [] := by
  by_contra hrest
  have hurl := authority_address hfront hback hscheme hnetloc hpath
  rw [if_neg hrest] at hurl
  have hsplit : (splitNetloc (splitScheme (clean (front ++ (text ++ (back ++ path))))).2).2 =
      ((authority text).2 ++ kept back) ++ path := by
    rw [List.append_assoc]
    exact congrArg Prod.snd hurl
  obtain ⟨-, -, -, -, htargets⟩ := urlparse_eq_ok_iff.1 hlong
  rw [hsplit, htarget.1, htarget.2.1, htarget.2.2] at htargets
  have hnil := splitTarget_behind hpath.toPlainPath htargets.symm
  exact hrest (List.append_eq_nil_iff.1 hnil).1

/-- White space behind the authority that is kept changes the host or spoils the port. -/
theorem kept_of_endpoint {netloc : Text} {port : Option Int}
    (hlower : ∀ s blanks, (∀ c ∈ blanks, isSpace c = true) →
      env.lower (s ++ blanks) = env.lower s ++ blanks)
    (hback : ∀ c ∈ back, isSpace c = true)
    (hcheck : checkBrackets env (netloc ++ kept back) = none)
    (hport : portNumber env (hostinfo (netloc ++ kept back)).2 = .ok port)
    (hsame : lowerHost env (hostinfo (netloc ++ kept back)).1 =
      lowerHost env (hostinfo netloc).1) : kept back = [] := by
  by_contra hsome
  have hspaces : ∀ c ∈ kept back, isSpace c = true :=
    fun c hc => hback c (List.mem_filter.1 hc).1
  exact endpoint_changed (kept_meaningless hback) hsome (fun s => hlower s _ hspaces) hcheck
    hport hsame

/-- A host name is there exactly where the host is. -/
theorem hostname_eq {r : UrlParse.ParseResult} (h : (hostinfo r.netloc).1 ≠ []) :
    r.hostname env = some (lowerHost env (hostinfo r.netloc).1) := if_neg h

/-- **Where the longer text parses to the same host, a port, and the path**, the text was
plain. -/
theorem plain_of_urlparse {r r' : UrlParse.ParseResult} {dialledPort : Option Int}
    (hlower : ∀ s blanks, (∀ c ∈ blanks, isSpace c = true) →
      env.lower (s ++ blanks) = env.lower s ++ blanks)
    (hparse : urlparse env text = .ok r) (hscheme : r.scheme ≠ [])
    (hhost : (hostinfo r.netloc).1 ≠ [])
    (hfront : ∀ c ∈ front, isSpace c = true) (hback : ∀ c ∈ back, isSpace c = true)
    (hpath : CleanPath path)
    (hlong : urlparse env (front ++ (text ++ (back ++ path))) = .ok r')
    (hsame : r'.hostname env = r.hostname env) (hport : r'.port env = .ok dialledPort)
    (htarget : r'.path = path ∧ r'.query = [] ∧ r'.fragment = []) :
    (∀ c ∈ front, c.toNat ≤ 0x20) ∧ (authority text).2 = [] ∧ kept back = [] ∧
      r'.netloc = r.netloc := by
  obtain ⟨-, -, hschemes, hnetlocs, -⟩ := urlparse_eq_ok_iff.1 hparse
  obtain ⟨hbrackets, -, -, hnetlocs', -⟩ := urlparse_eq_ok_iff.1 hlong
  have hnetloc : r.netloc = (authority text).1 := hnetlocs
  have hnetloc' : r'.netloc = (authority (front ++ (text ++ (back ++ path)))).1 := hnetlocs'
  have hne : (authority text).1 ≠ [] := by
    intro hnone
    rw [hnetloc, hnone] at hhost
    exact hhost rfl
  have hhost' : (hostinfo r'.netloc).1 ≠ [] := by
    intro hnone
    have hnames : r'.hostname env = none := if_pos hnone
    rw [hnames, hostname_eq hhost] at hsame
    cases hsame
  have hsmall : ∀ c ∈ front, c.toNat ≤ 0x20 := front_small hfront (hnetloc' ▸ hhost')
  rw [hschemes] at hscheme
  have hbare := bare_of_target hlong hsmall hback hscheme hne hpath htarget
  have hurl := authority_address hsmall hback hscheme hne hpath
  rw [if_pos hbare] at hurl
  have hnetlong : r'.netloc = r.netloc ++ kept back := by
    rw [hnetloc', hurl, hnetloc]
  have hkept : kept back = [] := by
    rw [hostname_eq hhost, hostname_eq hhost', Option.some.injEq, hnetlong] at hsame
    rw [UrlParse.ParseResult.port, hnetlong] at hport
    rw [← hnetlocs', hnetlong] at hbrackets
    exact kept_of_endpoint hlower hback hbrackets hport hsame
  rw [hkept, List.append_nil] at hnetlong
  exact ⟨hsmall, hbare, hkept, hnetlong⟩

end Address

/-! ## The accepted addresses -/

section Accepted

variable {Ip Net : Type} {libs : Libs Ip Net} {env : Env} {allowed : Allowed Net}
  {address path : String}

/-- What is known of the parts of an accepted address. -/
structure Parsed (libs : Libs Ip Net) (env : Env) (address : String)
    (r : UrlParse.ParseResult) (port : Option Int) : Prop where
  parses : urlparse env (stripWhile isSpace address.toList) = .ok r
  scheme : r.scheme ≠ []
  host : (hostinfo r.netloc).1 ≠ []
  port_ok : portNumber env (hostinfo r.netloc).2 = .ok port
  low : 1 ≤ portOrDefault (String.ofList r.scheme) port
  high : portOrDefault (String.ofList r.scheme) port ≤ 65535

theorem urlparse_eq_ok {s : String} {parsed : ParseResult}
    (h : (withUrlparse libs env).urlparse s = .ok parsed) :
    ∃ r, urlparse env s.toList = .ok r ∧ toResult env r = parsed := by
  change (urlparse env s.toList).map (toResult env) = .ok parsed at h
  cases hparse : urlparse env s.toList with
  | error e =>
      rw [hparse] at h
      cases h
  | ok r =>
      rw [hparse] at h
      exact ⟨r, rfl, Except.ok.inj h⟩

theorem parsed_of_accepted
    (h : validateHttpAddress (withUrlparse libs env) allowed address = none) :
    ∃ r port, Parsed libs env address r port := by
  obtain ⟨parsed, hostname, port, hparse, hscheme, hhostname, -, -, -, -, -, -, hport, hlow,
    hhigh, -⟩ := validateHttpAddress_eq_none.1 h
  obtain ⟨r, hr, rfl⟩ := urlparse_eq_ok hparse
  have htext : (strip address).toList = stripWhile isSpace address.toList := by
    rw [strip, String.toList_ofList]
  rw [htext] at hr
  refine ⟨r, port, hr, ?_, ?_, hport, hlow, hhigh⟩
  · intro hempty
    change String.ofList r.scheme = "http" ∨ String.ofList r.scheme = "https" at hscheme
    rw [hempty] at hscheme
    rcases hscheme with heq | heq <;> exact absurd heq (by decide)
  · intro hempty
    change (r.hostname env).map String.ofList = some hostname at hhostname
    rw [UrlParse.ParseResult.hostname, hempty] at hhostname
    cases hhostname

theorem withUrlparse_urlparse (s : String) :
    (withUrlparse libs env).urlparse s = (urlparse env s.toList).map (toResult env) := rfl

theorem urlparse_address {r : UrlParse.ParseResult} {port : Option Int}
    (h : Parsed libs env address r port) :
    (withUrlparse libs env).urlparse (strip address) = .ok (toResult env r) := by
  have htext : (strip address).toList = stripWhile isSpace address.toList := by
    rw [strip, String.toList_ofList]
  rw [withUrlparse_urlparse, htext, h.parses]
  rfl

/-- The longer text, around the trimmed address. -/
theorem toList_url (address path : String) :
    (address ++ path).toList = leading isSpace address.toList ++
      (stripWhile isSpace address.toList ++ (trailing isSpace address.toList ++ path.toList)) := by
  rw [String.toList_append, ← List.append_assoc, ← List.append_assoc, leading_strip_trailing]

theorem effectivePort_eq {scheme : String} {port : Option Int} (h : port ≠ some 0) :
    effectivePort scheme port = portOrDefault scheme port := by
  cases port with
  | none => rfl
  | some n =>
      have hne : n ≠ 0 := fun hzero => h (congrArg some hzero)
      exact (if_pos hne).symm

theorem kept_eq_nil_iff {back : Text} : kept back = [] ↔ ∀ c ∈ back, isRemoved c = true := by
  simp [kept]

/-- A plain address and a path parse to what was checked. -/
theorem dials_of_plain {r : UrlParse.ParseResult} {port : Option Int}
    (h : Parsed libs env address r port) (hpath : CleanPath path.toList)
    (hplain : PlainEndpoint env address) :
    Dials (withUrlparse libs env) address (address ++ path) path := by
  have hnetloc : r.netloc = (authority (stripWhile isSpace address.toList)).1 :=
    (urlparse_eq_ok_iff.1 h.parses).2.2.2.1
  have hne : r.netloc ≠ [] := by
    intro hnone
    exact h.host (by rw [hnone]; rfl)
  have hparse : urlparse env (address ++ path).toList =
      .ok ⟨r.scheme, r.netloc, path.toList, [], [], []⟩ := by
    rw [toList_url]
    exact urlparse_plain h.parses h.scheme hne hplain.front trailing_forall
      (kept_eq_nil_iff.2 hplain.back) hplain.bare hpath
  have hzero : port ≠ some 0 := by
    intro hzero
    apply hplain.port
    rw [← hnetloc, h.port_ok, hzero]
  have heffective : effectivePort (String.ofList r.scheme) port =
      portOrDefault (String.ofList r.scheme) port := effectivePort_eq hzero
  have hdialled : (withUrlparse libs env).urlparse (address ++ path) =
      .ok (toResult env ⟨r.scheme, r.netloc, path.toList, [], [], []⟩) := by
    rw [withUrlparse_urlparse, hparse]
    rfl
  refine ⟨toResult env r, toResult env ⟨r.scheme, r.netloc, path.toList, [], [], []⟩, port, port,
    urlparse_address h, hdialled, rfl, h.port_ok, h.port_ok, heffective, ?_, ?_,
    String.ofList_toList, rfl, rfl⟩
  · show 1 ≤ effectivePort (String.ofList r.scheme) port
    rw [heffective]
    exact h.low
  · show effectivePort (String.ofList r.scheme) port ≤ 65535
    rw [heffective]
    exact h.high

/-- **The addresses for which the URL is the checked endpoint.** -/
theorem dials_iff {r : UrlParse.ParseResult} {port : Option Int}
    (hlower : ∀ s blanks, (∀ c ∈ blanks, isSpace c = true) →
      env.lower (s ++ blanks) = env.lower s ++ blanks)
    (h : Parsed libs env address r port) (hpath : CleanPath path.toList) :
    Dials (withUrlparse libs env) address (address ++ path) path ↔ PlainEndpoint env address := by
  constructor
  · rintro ⟨checked, dialled, checkedPort, dialledPort, hchecked, hdialled, hsame, -, hport, -,
      hlow, -, hpaths, hquery, hfragment⟩
    obtain ⟨r', hlong, rfl⟩ := urlparse_eq_ok hdialled
    have hr : checked = toResult env r :=
      Except.ok.inj (hchecked.symm.trans (urlparse_address h))
    rw [hr] at hsame
    rw [toList_url] at hlong
    have hnames : r'.hostname env = r.hostname env := by
      have hmap : (r'.hostname env).map String.ofList = (r.hostname env).map String.ofList := hsame
      apply Option.map_injective _ hmap
      intro s t hst
      exact String.ofList_inj.1 hst
    have hempty : ∀ cs : Text, String.ofList cs = "" → cs = [] :=
      fun cs hcs => String.ofList_inj.1 hcs
    have htarget : r'.path = path.toList ∧ r'.query = [] ∧ r'.fragment = [] := by
      refine ⟨?_, hempty _ hquery, hempty _ hfragment⟩
      have heq : String.ofList r'.path = path := hpaths
      rw [← heq, String.toList_ofList]
    obtain ⟨hsmall, hbare, hkept, hnetloc⟩ := plain_of_urlparse hlower h.parses h.scheme h.host
      leading_forall trailing_forall hpath hlong hnames hport htarget
    refine ⟨hsmall, kept_eq_nil_iff.1 hkept, hbare, ?_⟩
    intro hzero
    have hnetlocs : r.netloc = (authority (stripWhile isSpace address.toList)).1 :=
      (urlparse_eq_ok_iff.1 h.parses).2.2.2.1
    have hports : r'.port env = .ok (some 0) := by
      rw [UrlParse.ParseResult.port, hnetloc, hnetlocs]
      exact hzero
    have hdialledPort : dialledPort = some 0 := Except.ok.inj (hport.symm.trans hports)
    rw [hdialledPort] at hlow
    have hbad : (1 : Int) ≤ 0 := hlow
    exact absurd hbad (by decide)
  · exact dials_of_plain h hpath

theorem cleanPath_ping : CleanPath "/ping".toList :=
  CleanPath.of_all ⟨⟨"ping".toList, by decide, by decide, by decide⟩, by decide, by decide⟩
    (by decide)

theorem cleanPath_pushTask : CleanPath "/push_task".toList :=
  CleanPath.of_all ⟨⟨"push_task".toList, by decide, by decide, by decide⟩, by decide, by decide⟩
    (by decide)

/-- **The endpoint that is dialled is the one that was checked**, for an accepted address,
exactly where the address is plain. -/
theorem endpoint_checked_iff
    (hlower : ∀ s blanks, (∀ c ∈ blanks, isSpace c = true) →
      env.lower (s ++ blanks) = env.lower s ++ blanks)
    (haccepted : validateHttpAddress (withUrlparse libs env) allowed address = none) :
    (Dials (withUrlparse libs env) address (HttpServer.mk address).pingUrl "/ping" ∧
      Dials (withUrlparse libs env) address (HttpServer.mk address).pushTaskUrl "/push_task") ↔
      PlainEndpoint env address := by
  obtain ⟨r, port, hparsed⟩ := parsed_of_accepted haccepted
  constructor
  · intro hboth
    exact (dials_iff hlower hparsed cleanPath_ping).1 hboth.1
  · intro hplain
    exact ⟨(dials_iff hlower hparsed cleanPath_ping).2 hplain,
      (dials_iff hlower hparsed cleanPath_pushTask).2 hplain⟩

end Accepted

/-! ## One address with a slash behind it -/

/-- The lower case of ASCII letters, and no text that NFKC changes. -/
def asciiEnv : Env where
  lower := List.map Char.toLower
  nfkc := id
  checkBracketedHost := fun _ => none
  repr := id

theorem slash_accepted :
    validateHttpAddress (withUrlparse onePublic asciiEnv) ⟨[], []⟩ "http://93.184.216.34/" =
      none := by
  decide +kernel

/-- The hub asks for the path `//ping`. -/
theorem slash_not_dialled :
    validateHttpAddress (withUrlparse onePublic asciiEnv) ⟨[], []⟩ "http://93.184.216.34/" =
        none ∧
      ¬ Dials (withUrlparse onePublic asciiEnv) "http://93.184.216.34/"
        (HttpServer.mk "http://93.184.216.34/").pingUrl "/ping" := by
  refine ⟨slash_accepted, ?_⟩
  rintro ⟨checked, dialled, port, dialledPort, -, hdialled, -, -, -, -, -, -, hpath, -⟩
  have hparse : urlparse asciiEnv "http://93.184.216.34//ping".toList =
      .ok ⟨"http".toList, "93.184.216.34".toList, "//ping".toList, [], [], []⟩ := by
    decide +kernel
  obtain ⟨r, hr, rfl⟩ := urlparse_eq_ok hdialled
  have htext : (HttpServer.mk "http://93.184.216.34/").pingUrl = "http://93.184.216.34//ping" := rfl
  rw [htext, hparse] at hr
  rw [← Except.ok.inj hr] at hpath
  exact absurd hpath (by decide)

theorem toLower_space {c : Char} (h : isSpace c = true) : c.toLower = c := by
  have hall : spaceCodes.all (fun n => decide ((Char.ofNat n).toLower = Char.ofNat n)) = true := by
    decide +kernel
  have hc := of_decide_eq_true (List.all_eq_true.1 hall c.toNat (mem_spaceCodes h))
  rwa [Char.ofNat_toNat] at hc

theorem asciiEnv_lower_append (s blanks : Text) (h : ∀ c ∈ blanks, isSpace c = true) :
    asciiEnv.lower (s ++ blanks) = asciiEnv.lower s ++ blanks := by
  have hsame : blanks.map Char.toLower = blanks.map id :=
    List.map_congr_left (fun c hc => toLower_space (h c hc))
  rw [List.map_id] at hsame
  show (s ++ blanks).map Char.toLower = s.map Char.toLower ++ blanks
  rw [List.map_append, hsame]

theorem port_accepted :
    validateHttpAddress (withUrlparse onePublic asciiEnv) ⟨[], []⟩ "http://93.184.216.34:8080" =
      none := by
  decide +kernel

theorem port_plain : PlainEndpoint asciiEnv "http://93.184.216.34:8080" := by
  have hfront : leading isSpace "http://93.184.216.34:8080".toList = [] := by decide +kernel
  have hback : trailing isSpace "http://93.184.216.34:8080".toList = [] := by decide +kernel
  refine ⟨?_, ?_, by decide +kernel, by decide +kernel⟩
  · rw [hfront]
    intro c hc
    cases hc
  · rw [hback]
    intro c hc
    cases hc

/-- An address with a port is dialled as it was checked. -/
theorem port_dialled :
    Dials (withUrlparse onePublic asciiEnv) "http://93.184.216.34:8080"
        (HttpServer.mk "http://93.184.216.34:8080").pingUrl "/ping" ∧
      Dials (withUrlparse onePublic asciiEnv) "http://93.184.216.34:8080"
        (HttpServer.mk "http://93.184.216.34:8080").pushTaskUrl "/push_task" :=
  (endpoint_checked_iff asciiEnv_lower_append port_accepted).2 port_plain

end ProverNetwork.Ports.NodeAddress
