import ProverNetwork.Verified.PyText

/-!
# URLs as Python parses them

`urllib.parse.urlparse` and the properties of its result, as in the last releases of
Python 3.11.  Leading control characters are dropped, tabs and line breaks are removed
everywhere, and a text without a scheme or without `//` parses all the same.

Lower case beyond ASCII, the NFKC form of a text and the check of a host in brackets are
parameters.

## Main results

* `splitScheme_append`, `splitNetloc_append` — what a text behind the URL changes.
* `hostinfo_append` — the host and the port of a longer authority.
* `splitTarget_behind` — a path behind another path, a query or a fragment is not the path
  that is parsed.
* `endpoint_changed` — white space behind the authority changes the host or spoils the port.
-/

namespace ProverNetwork.Verified.UrlParse

open ProverNetwork.Verified.PyText

abbrev Text := List Char

/-- `str.lower`, `unicodedata.normalize("NFKC", s)`, `_check_bracketed_host` with the text
of its `ValueError`, and `repr`. -/
structure Env where
  lower : Text → Text
  nfkc : Text → Text
  checkBracketedHost : Text → Option String
  repr : String → String

/-- The six parts of a URL. -/
structure ParseResult where
  scheme : Text
  netloc : Text
  path : Text
  params : Text
  query : Text
  fragment : Text
  deriving DecidableEq

/-- The text up to a separator and the text behind it; all and nothing where there is
no separator. -/
def splitAt (sep : Char) (cs : Text) : Text × Text := (partition sep cs).getD (cs, [])

/-! ## The parser -/

/-- A character of `_UNSAFE_URL_BYTES_TO_REMOVE`. -/
def isRemoved (c : Char) : Bool := c = '\t' || c = '\r' || c = '\n'

/-- The text without its leading control characters and blanks, and without tabs and
line breaks. -/
def clean (url : Text) : Text :=
  (url.dropWhile (fun c => c.toNat ≤ 0x20)).filter (fun c => !isRemoved c)

def schemeChar (c : Char) : Bool := c.isAlphanum || c = '+' || c = '-' || c = '.'

/-- The scheme in lower case, and the rest. -/
def splitScheme (url : Text) : Text × Text :=
  match partition ':' url with
  | some (c :: front, back) =>
      if c.isAlpha && (c :: front).all schemeChar then ((c :: front).map Char.toLower, back)
      else ([], url)
  | _ => ([], url)

def isDelim (c : Char) : Bool := c = '/' || c = '?' || c = '#'

/-- The authority behind `//`, and the rest. -/
def splitNetloc (url : Text) : Text × Text :=
  if ['/', '/'].isPrefixOf url then
    ((url.drop 2).takeWhile (fun c => !isDelim c), (url.drop 2).dropWhile (fun c => !isDelim c))
  else ([], url)

/-- `netloc.rpartition("@")[2]`. -/
def hostAndPort (netloc : Text) : Text :=
  match rpartition '@' netloc with
  | some (_, back) => back
  | none => netloc

/-- `_check_bracketed_netloc`, with the text of the `ValueError`. -/
def checkBracketedNetloc (env : Env) (netloc : Text) : Option String :=
  match partition '[' (hostAndPort netloc) with
  | some (before, bracketed) =>
      let (hostname, port) := splitAt ']' bracketed
      if before ≠ [] then some "Invalid IPv6 URL"
      else if port ≠ [] ∧ port.head? ≠ some ':' then some "Invalid IPv6 URL"
      else env.checkBracketedHost hostname
  | none => env.checkBracketedHost (splitAt ':' (hostAndPort netloc)).1

def checkBrackets (env : Env) (netloc : Text) : Option String :=
  if '[' ∈ netloc ↔ ']' ∈ netloc then
    if '[' ∈ netloc then checkBracketedNetloc env netloc else none
  else some "Invalid IPv6 URL"

/-- `_checknetloc`. -/
def checkNetloc (env : Env) (netloc : Text) : Option String :=
  if netloc.all (fun c => c.toNat < 128) then none
  else
    let n := netloc.filter (fun c => !(c = '@' || c = ':' || c = '#' || c = '?'))
    let netloc2 := env.nfkc n
    if n = netloc2 then none
    else if netloc2.any (fun c => isDelim c || c = '@' || c = ':') then
      some ("netloc '" ++ String.ofList netloc ++
        "' contains invalid characters under NFKC normalization")
    else none

def usesParams : List Text :=
  ["", "ftp", "hdl", "prospero", "http", "https", "shttp", "rtsp", "rtspu", "sip", "sips",
    "mms", "sftp", "tel"].map String.toList

/-- `_splitparams`: the parameters of the last segment. -/
def splitParams (url : Text) : Text × Text :=
  match rpartition '/' url with
  | some (front, last) =>
      match partition ';' last with
      | some (segment, params) => (front ++ '/' :: segment, params)
      | none => (url, [])
  | none => splitAt ';' url

/-- The path, the parameters, the query and the fragment behind the authority. -/
def splitTarget (scheme url : Text) : Text × Text × Text × Text :=
  let (url, fragment) := splitAt '#' url
  let (url, query) := splitAt '?' url
  let (path, params) :=
    if scheme ∈ usesParams ∧ ';' ∈ url then splitParams url else (url, [])
  (path, params, query, fragment)

/-- `urlparse`. -/
def urlparse (env : Env) (url : Text) : Except String ParseResult :=
  let (scheme, url) := splitScheme (clean url)
  let (netloc, url) := splitNetloc url
  match (checkBrackets env netloc).or (checkNetloc env netloc) with
  | some error => .error error
  | none =>
      let (path, params, query, fragment) := splitTarget scheme url
      .ok ⟨scheme, netloc, path, params, query, fragment⟩

/-! ## The properties of the result -/

/-- `_userinfo`. -/
def userinfo (netloc : Text) : Option Text × Option Text :=
  match rpartition '@' netloc with
  | some (front, _) =>
      match partition ':' front with
      | some (username, password) => (some username, some password)
      | none => (some front, none)
  | none => (none, none)

/-- `_hostinfo`, the port being empty where there is none. -/
def hostinfo (netloc : Text) : Text × Text :=
  match partition '[' (hostAndPort netloc) with
  | some (_, bracketed) =>
      let (hostname, port) := splitAt ']' bracketed
      (hostname, (splitAt ':' port).2)
  | none => splitAt ':' (hostAndPort netloc)

/-- A host in lower case, but for its zone. -/
def lowerHost (env : Env) (hostname : Text) : Text :=
  match partition '%' hostname with
  | some (host, zone) => env.lower host ++ '%' :: zone
  | none => env.lower hostname

/-- `hostname`. -/
def ParseResult.hostname (env : Env) (r : ParseResult) : Option Text :=
  let hostname := (hostinfo r.netloc).1
  if hostname = [] then none else some (lowerHost env hostname)

/-- A port text as a number. -/
def portNumber (env : Env) (port : Text) : Except String (Option Int) :=
  if port = [] then .ok none
  else if port.all Char.isDigit then
    match int (String.ofList port) with
    | .error error => .error (error.text env.repr (String.ofList port))
    | .ok n =>
        if 0 ≤ n ∧ n ≤ 65535 then .ok (some n) else .error "Port out of range 0-65535"
  else .error ("Port could not be cast to integer value as " ++ env.repr (String.ofList port))

/-- `port`. -/
def ParseResult.port (env : Env) (r : ParseResult) : Except String (Option Int) :=
  portNumber env (hostinfo r.netloc).2

/-! ## Separators -/

theorem splitAt_of_notMem {sep : Char} {cs : Text} (h : sep ∉ cs) : splitAt sep cs = (cs, []) := by
  rw [splitAt, partition_eq_none.2 h]
  rfl

theorem splitAt_cons {sep : Char} {front : Text} (h : sep ∉ front) (back : Text) :
    splitAt sep (front ++ sep :: back) = (front, back) := by
  rw [splitAt, partition_append h]
  rfl

theorem splitAt_append {sep : Char} {cs : Text} (h : sep ∈ cs) (more : Text) :
    splitAt sep (cs ++ more) = ((splitAt sep cs).1, (splitAt sep cs).2 ++ more) := by
  obtain ⟨front, back, rfl, hfront⟩ := List.eq_append_cons_of_mem h
  rw [List.append_assoc, List.cons_append, splitAt_cons hfront, splitAt_cons hfront]

/-- Nothing stands behind a separator at the end only. -/
theorem notMem_of_splitAt_snd {sep : Char} {cs : Text} (h : (splitAt sep cs).2 = [])
    (hlast : cs.getLast? ≠ some sep) : sep ∉ cs := by
  intro hmem
  obtain ⟨front, back, rfl, hfront⟩ := List.eq_append_cons_of_mem hmem
  rw [splitAt_cons hfront] at h
  apply hlast
  rw [show back = [] from h]
  exact List.getLast?_concat

/-! ## A text behind a text -/

theorem clean_append {url : Text} (h : ∃ c ∈ url, ¬ c.toNat ≤ 0x20) (more : Text) :
    clean (url ++ more) = clean url ++ more.filter (fun c => !isRemoved c) := by
  obtain ⟨c, hc, hlarge⟩ := h
  have hkept : url.dropWhile (fun c => c.toNat ≤ 0x20) ≠ [] := by
    intro hnil
    have hall : url.takeWhile (fun c => c.toNat ≤ 0x20) = url := by
      have hsplit := List.takeWhile_append_dropWhile (p := fun c => c.toNat ≤ 0x20) (l := url)
      rwa [hnil, List.append_nil] at hsplit
    rw [← hall] at hc
    have hsmall := List.all_eq_true.1 List.all_takeWhile c hc
    exact hlarge (of_decide_eq_true hsmall)
  have hdrop : (url ++ more).dropWhile (fun c => c.toNat ≤ 0x20) =
      url.dropWhile (fun c => c.toNat ≤ 0x20) ++ more := by
    rw [List.dropWhile_append, if_neg (by simpa using hkept)]
  rw [clean, hdrop, List.filter_append]
  rfl

theorem clean_of_small {front : Text} (h : ∀ c ∈ front, c.toNat ≤ 0x20) (url : Text) :
    clean (front ++ url) = clean url := by
  rw [clean, List.dropWhile_append_of_pos (fun c hc => decide_eq_true (h c hc))]
  rfl

theorem clean_cons {c : Char} (hlarge : ¬ c.toNat ≤ 0x20) (rest : Text) :
    clean (c :: rest) = c :: rest.filter (fun c => !isRemoved c) := by
  have hkept : isRemoved c = false := by
    cases hremoved : isRemoved c with
    | false => rfl
    | true =>
        simp only [isRemoved, Bool.or_eq_true, decide_eq_true_eq] at hremoved
        rcases hremoved with (rfl | rfl) | rfl <;> exact absurd (by decide) hlarge
  rw [clean, List.dropWhile_cons_of_neg (by simpa using hlarge), List.filter_cons]
  simp [hkept]

/-- A text that starts with no letter has no scheme. -/
theorem splitScheme_of_not_alpha {c : Char} (h : c.isAlpha = false) (url : Text) :
    splitScheme (c :: url) = ([], c :: url) := by
  unfold splitScheme
  split
  next c' front back hsplit =>
    obtain ⟨heq, -⟩ := partition_eq_some hsplit
    have hc : c' = c := (List.cons.inj heq).1.symm
    rw [hc, h]
    rfl
  next => rfl

theorem splitScheme_append {url : Text} (h : (splitScheme url).1 ≠ []) (more : Text) :
    splitScheme (url ++ more) = ((splitScheme url).1, (splitScheme url).2 ++ more) := by
  unfold splitScheme at h ⊢
  cases hsplit : partition ':' url with
  | none =>
      rw [hsplit] at h
      exact absurd rfl h
  | some pair =>
      rcases pair with ⟨front, back⟩
      obtain ⟨heq, hfront⟩ := partition_eq_some hsplit
      have hmore : partition ':' (url ++ more) = some (front, back ++ more) := by
        rw [heq, List.append_assoc, List.cons_append]
        exact partition_append hfront (back ++ more)
      rw [hsplit] at h
      rw [hmore]
      cases front with
      | nil => exact absurd rfl h
      | cons c front =>
          dsimp only at h ⊢
          by_cases hscheme : (c.isAlpha && (c :: front).all schemeChar) = true
          · rw [if_pos hscheme, if_pos hscheme]
          · rw [if_neg hscheme] at h
            exact absurd rfl h

/-- The authority reaches up to the first delimiter. -/
theorem splitNetloc_delim {n : Text} (hn : ∀ c ∈ n, isDelim c = false) {d : Char}
    (hd : isDelim d = true) (tail : Text) :
    splitNetloc ('/' :: '/' :: (n ++ d :: tail)) = (n, d :: tail) := by
  have hkeep : ∀ c ∈ n, (!isDelim c) = true := by
    intro c hc
    rw [hn c hc]
    rfl
  show ((n ++ d :: tail).takeWhile (fun c => !isDelim c),
    (n ++ d :: tail).dropWhile (fun c => !isDelim c)) = _
  rw [List.takeWhile_append_of_pos hkeep, List.dropWhile_append_of_pos hkeep]
  simp [hd]

/-- An authority, and nothing or a delimiter behind it. -/
theorem exists_of_netloc {url : Text} (h : (splitNetloc url).1 ≠ []) :
    ∃ n rest, url = '/' :: '/' :: (n ++ rest) ∧ splitNetloc url = (n, rest) ∧
      (∀ c ∈ n, isDelim c = false) ∧
      (rest = [] ∨ ∃ d tail, rest = d :: tail ∧ isDelim d = true) := by
  unfold splitNetloc at h ⊢
  split at h
  next hslashes =>
    obtain ⟨body, hbody⟩ := List.isPrefixOf_iff_prefix.1 hslashes
    have hurl : url = '/' :: '/' :: body := hbody.symm
    rw [if_pos hslashes]
    refine ⟨body.takeWhile (fun c => !isDelim c), body.dropWhile (fun c => !isDelim c), ?_, ?_,
      ?_, ?_⟩
    · rw [List.takeWhile_append_dropWhile, hurl]
    · rw [hurl]
      rfl
    · intro c hc
      have hall := List.all_eq_true.1 List.all_takeWhile c hc
      simpa using hall
    · cases hdrop : body.dropWhile (fun c => !isDelim c) with
      | nil => exact Or.inl rfl
      | cons d tail =>
          refine Or.inr ⟨d, tail, rfl, ?_⟩
          have hhead : (!isDelim d) = false :=
            head?_dropWhile (show (body.dropWhile (fun c => !isDelim c)).head? = some d by
              rw [hdrop]; rfl)
          simpa using hhead
  next => exact absurd rfl h

/-- Behind the authority more text is more target. -/
theorem splitNetloc_append {n : Text} (hn : ∀ c ∈ n, isDelim c = false) {rest : Text}
    (hrest : rest = [] ∨ ∃ d tail, rest = d :: tail ∧ isDelim d = true) {blanks more : Text}
    (hblanks : ∀ c ∈ blanks, isDelim c = false)
    (hmore : ∃ d tail, more = d :: tail ∧ isDelim d = true) :
    splitNetloc ('/' :: '/' :: (n ++ rest) ++ (blanks ++ more)) =
      if rest = [] then (n ++ blanks, more) else (n, rest ++ (blanks ++ more)) := by
  rcases hrest with rfl | ⟨d, tail, rfl, hd⟩
  · obtain ⟨d, tail, rfl, hd⟩ := hmore
    have hboth : ∀ c ∈ n ++ blanks, isDelim c = false :=
      List.forall_mem_append.2 ⟨hn, hblanks⟩
    rw [if_pos rfl, List.append_nil, List.cons_append, List.cons_append, ← List.append_assoc]
    exact splitNetloc_delim hboth hd tail
  · rw [if_neg (List.cons_ne_nil d tail), List.cons_append, List.cons_append, List.append_assoc,
      List.cons_append]
    exact splitNetloc_delim hn hd (tail ++ (blanks ++ more))

/-! ## The target -/

/-- A path of one segment that parses as itself. -/
structure PlainPath (path : Text) : Prop where
  segment : ∃ name, path = '/' :: name ∧ '/' ∉ name ∧ ';' ∉ name
  no_fragment : '#' ∉ path
  no_query : '?' ∉ path

theorem PlainPath.getLast?_ne {path : Text} (h : PlainPath path) {sep : Char}
    (hsep : sep ∉ path) (rest : Text) : (rest ++ path).getLast? ≠ some sep := by
  intro hlast
  obtain ⟨name, hname, -⟩ := h.segment
  rw [List.getLast?_append, Option.or_of_isSome (by rw [hname]; simp)] at hlast
  exact hsep (List.mem_of_getLast? hlast)

theorem splitParams_plain {path : Text} (h : PlainPath path) (rest : Text) :
    splitParams (rest ++ path) = (rest ++ path, []) := by
  obtain ⟨name, rfl, hslash, hsemicolon⟩ := h.segment
  rw [splitParams, rpartition_append hslash]
  dsimp only
  rw [partition_eq_none.2 hsemicolon]

/-- A plain path is parsed as the path. -/
theorem splitTarget_plain {path : Text} (h : PlainPath path) (scheme : Text) :
    splitTarget scheme path = (path, [], [], []) := by
  have hparams : splitParams path = (path, []) := splitParams_plain h []
  rw [splitTarget, splitAt_of_notMem h.no_fragment]
  dsimp only
  rw [splitAt_of_notMem h.no_query, hparams]
  simp

/-- **Only a plain path alone is parsed as the path**: behind another path, a query or a
fragment it is not, even where those are empty. -/
theorem splitTarget_behind {path rest scheme : Text} (h : PlainPath path) {params : Text}
    (htarget : splitTarget scheme (rest ++ path) = (path, params, [], [])) : rest = [] := by
  unfold splitTarget at htarget
  dsimp only at htarget
  simp only [Prod.mk.injEq] at htarget
  obtain ⟨hpath, -, hquery, hfragment⟩ := htarget
  have hplain := splitAt_of_notMem
    (notMem_of_splitAt_snd hfragment (h.getLast?_ne h.no_fragment rest))
  rw [hplain] at hpath hquery
  have hplain := splitAt_of_notMem
    (notMem_of_splitAt_snd hquery (h.getLast?_ne h.no_query rest))
  rw [hplain, splitParams_plain h rest] at hpath
  have heq : rest ++ path = path := by simpa using hpath
  exact List.append_left_eq_self.1 heq

/-! ## A longer authority -/

/-- Characters with no meaning in an authority, none of them a digit. -/
def Meaningless (more : Text) : Prop :=
  ∀ c ∈ more, c ≠ '@' ∧ c ≠ '[' ∧ c ≠ ']' ∧ c ≠ ':' ∧ c ≠ '%' ∧ c.isDigit = false

theorem Meaningless.notMem_at {more : Text} (h : Meaningless more) : '@' ∉ more :=
  fun hmem => (h _ hmem).1 rfl

theorem Meaningless.notMem_open {more : Text} (h : Meaningless more) : '[' ∉ more :=
  fun hmem => (h _ hmem).2.1 rfl

theorem Meaningless.notMem_close {more : Text} (h : Meaningless more) : ']' ∉ more :=
  fun hmem => (h _ hmem).2.2.1 rfl

theorem Meaningless.notMem_colon {more : Text} (h : Meaningless more) : ':' ∉ more :=
  fun hmem => (h _ hmem).2.2.2.1 rfl

theorem Meaningless.notMem_percent {more : Text} (h : Meaningless more) : '%' ∉ more :=
  fun hmem => (h _ hmem).2.2.2.2.1 rfl

theorem hostAndPort_append {more : Text} (h : Meaningless more) (netloc : Text) :
    hostAndPort (netloc ++ more) = hostAndPort netloc ++ more := by
  by_cases hat : '@' ∈ netloc
  · obtain ⟨back, front, hrev, hback⟩ :=
      List.eq_append_cons_of_mem (List.mem_reverse.2 hat)
    have hnetloc : netloc = front.reverse ++ '@' :: back.reverse := by
      rw [← List.reverse_reverse netloc, hrev]
      simp
    have hback' : '@' ∉ back.reverse := by simpa using hback
    have hmore : '@' ∉ back.reverse ++ more := List.not_mem_append hback' h.notMem_at
    rw [hnetloc, List.append_assoc, List.cons_append]
    rw [hostAndPort, rpartition_append hmore, hostAndPort, rpartition_append hback']
  · have hmore : '@' ∉ netloc ++ more := List.not_mem_append hat h.notMem_at
    have hnone : ∀ {cs : Text}, '@' ∉ cs → hostAndPort cs = cs := by
      intro cs hcs
      have hrev : partition '@' cs.reverse = none :=
        partition_eq_none.2 (by simpa using hcs)
      rw [hostAndPort, rpartition, hrev]
      rfl
    rw [hnone hmore, hnone hat]

theorem mem_of_hostAndPort {c : Char} {netloc : Text} (h : c ∈ hostAndPort netloc) :
    c ∈ netloc := by
  unfold hostAndPort at h
  split at h
  next front back hsplit =>
    rw [(rpartition_eq_some hsplit).1]
    exact List.mem_append_right _ (List.mem_cons_of_mem _ h)
  next => exact h

/-- Between a bracket and the port nothing may stand. -/
theorem checkBrackets_behind {env : Env} {netloc before bracketed : Text}
    (hsplit : partition '[' (hostAndPort netloc) = some (before, bracketed))
    (hclose : ']' ∈ bracketed) (hport : (splitAt ']' bracketed).2 ≠ [])
    (hcolon : ':' ∉ (splitAt ']' bracketed).2) : checkBrackets env netloc ≠ none := by
  obtain ⟨heq, -⟩ := partition_eq_some hsplit
  have hopen : '[' ∈ netloc := mem_of_hostAndPort (by rw [heq]; simp)
  have hclosed : ']' ∈ netloc := mem_of_hostAndPort (by rw [heq]; simp [hclose])
  have hhead : (splitAt ']' bracketed).2.head? ≠ some ':' :=
    fun hhead => hcolon (List.mem_of_head? hhead)
  rw [checkBrackets, if_pos ⟨fun _ => hclosed, fun _ => hopen⟩, if_pos hopen,
    checkBracketedNetloc, hsplit]
  dsimp only
  by_cases hbefore : before ≠ []
  · rw [if_pos hbefore]
    exact Option.some_ne_none _
  · rw [if_neg hbefore, if_pos ⟨hport, hhead⟩]
    exact Option.some_ne_none _

/-- A longer authority with a bracket. -/
theorem hostinfo_bracketed {env : Env} {more : Text} (h : Meaningless more) (hnil : more ≠ [])
    {netloc : Text} (hcheck : checkBrackets env (netloc ++ more) = none)
    (hopen : '[' ∈ hostAndPort netloc) :
    (hostinfo (netloc ++ more)).2 = (hostinfo netloc).2 ++ more ∨
      (hostinfo (netloc ++ more)).1 = (hostinfo netloc).1 ++ more := by
  obtain ⟨before, bracketed, hsplit, hbefore⟩ := List.eq_append_cons_of_mem hopen
  have hplain : partition '[' (hostAndPort netloc) = some (before, bracketed) := by
    rw [hsplit, partition_append hbefore]
  have hlong : partition '[' (hostAndPort (netloc ++ more)) =
      some (before, bracketed ++ more) := by
    rw [hostAndPort_append h, hsplit, List.append_assoc, List.cons_append,
      partition_append hbefore]
  rw [hostinfo, hlong, hostinfo, hplain]
  dsimp only
  by_cases hclose : ']' ∈ bracketed
  · rw [splitAt_append hclose]
    dsimp only
    by_cases hcolon : ':' ∈ (splitAt ']' bracketed).2
    · rw [splitAt_append hcolon]
      exact Or.inl rfl
    · -- the text would stand between the bracket and the port
      have hnone : ':' ∉ (splitAt ']' (bracketed ++ more)).2 := by
        rw [splitAt_append hclose]
        exact List.not_mem_append hcolon h.notMem_colon
      have hsome : (splitAt ']' (bracketed ++ more)).2 ≠ [] := by
        rw [splitAt_append hclose]
        simp [hnil]
      exact absurd hcheck
        (checkBrackets_behind hlong (List.mem_append_left _ hclose) hsome hnone)
  · right
    have hmore : ']' ∉ bracketed ++ more := List.not_mem_append hclose h.notMem_close
    rw [splitAt_of_notMem hmore, splitAt_of_notMem hclose]

/-- A longer authority without a bracket. -/
theorem hostinfo_plain {more : Text} (h : Meaningless more) {netloc : Text}
    (hopen : '[' ∉ hostAndPort netloc) :
    (hostinfo (netloc ++ more)).2 = (hostinfo netloc).2 ++ more ∨
      (hostinfo (netloc ++ more)).1 = (hostinfo netloc).1 ++ more := by
  have hopen' : '[' ∉ hostAndPort netloc ++ more := List.not_mem_append hopen h.notMem_open
  rw [hostinfo, hostAndPort_append h, partition_eq_none.2 hopen', hostinfo,
    partition_eq_none.2 hopen]
  dsimp only
  by_cases hcolon : ':' ∈ hostAndPort netloc
  · rw [splitAt_append hcolon]
    exact Or.inl rfl
  · right
    have hcolon' : ':' ∉ hostAndPort netloc ++ more := List.not_mem_append hcolon h.notMem_colon
    rw [splitAt_of_notMem hcolon', splitAt_of_notMem hcolon]

/-- **The host and the port of a longer authority**: the text joins the port where there
is one, else the host; behind a bracket it is refused. -/
theorem hostinfo_append {env : Env} {more : Text} (h : Meaningless more) {netloc : Text}
    (hcheck : checkBrackets env (netloc ++ more) = none) :
    (hostinfo (netloc ++ more)).2 = (hostinfo netloc).2 ++ more ∨
      (hostinfo (netloc ++ more)).1 = (hostinfo netloc).1 ++ more := by
  by_cases hnil : more = []
  · rw [hnil, List.append_nil]
    exact Or.inl (List.append_nil _).symm
  · by_cases hopen : '[' ∈ hostAndPort netloc
    · exact hostinfo_bracketed h hnil hcheck hopen
    · exact hostinfo_plain h hopen

theorem lowerHost_append {env : Env} {more : Text} (h : Meaningless more)
    (hlower : ∀ s, env.lower (s ++ more) = env.lower s ++ more) (hostname : Text) :
    lowerHost env (hostname ++ more) = lowerHost env hostname ++ more := by
  unfold lowerHost
  by_cases hzone : '%' ∈ hostname
  · obtain ⟨host, zone, rfl, hhost⟩ := List.eq_append_cons_of_mem hzone
    rw [List.append_assoc, List.cons_append, partition_append hhost, partition_append hhost]
    simp
  · have hmore : '%' ∉ hostname ++ more := List.not_mem_append hzone h.notMem_percent
    rw [partition_eq_none.2 hmore, partition_eq_none.2 hzone]
    exact hlower hostname

theorem urlparse_eq_ok_iff {env : Env} {url : Text} {r : ParseResult} :
    urlparse env url = .ok r ↔
      checkBrackets env (splitNetloc (splitScheme (clean url)).2).1 = none ∧
      checkNetloc env (splitNetloc (splitScheme (clean url)).2).1 = none ∧
      r.scheme = (splitScheme (clean url)).1 ∧
      r.netloc = (splitNetloc (splitScheme (clean url)).2).1 ∧
      (r.path, r.params, r.query, r.fragment) =
        splitTarget (splitScheme (clean url)).1 (splitNetloc (splitScheme (clean url)).2).2 := by
  rcases r with ⟨scheme, netloc, path, params, query, fragment⟩
  unfold urlparse
  dsimp only
  cases hbrackets : checkBrackets env (splitNetloc (splitScheme (clean url)).2).1 with
  | some error => simp
  | none =>
      cases hnetloc : checkNetloc env (splitNetloc (splitScheme (clean url)).2).1 with
      | some error => simp
      | none => simp [Prod.ext_iff, eq_comm]

/-- A port is a text of digits. -/
theorem digits_of_portNumber {env : Env} {port : Text} {n : Option Int}
    (h : portNumber env port = .ok n) : ∀ c ∈ port, c.isDigit = true := by
  unfold portNumber at h
  split at h
  next hempty =>
    intro c hc
    rw [hempty] at hc
    cases hc
  next =>
    split at h
    next hall => exact List.all_eq_true.1 hall
    next => cases h

/-- **A longer authority has another host or no port.** -/
theorem endpoint_changed {env : Env} {more : Text} (h : Meaningless more) (hne : more ≠ [])
    (hlower : ∀ s, env.lower (s ++ more) = env.lower s ++ more) {netloc : Text}
    (hcheck : checkBrackets env (netloc ++ more) = none) {n : Option Int}
    (hport : portNumber env (hostinfo (netloc ++ more)).2 = .ok n) :
    lowerHost env (hostinfo (netloc ++ more)).1 ≠ lowerHost env (hostinfo netloc).1 := by
  rcases hostinfo_append h hcheck with hlonger | hlonger
  · obtain ⟨c, rest, hmore⟩ := List.exists_cons_of_ne_nil hne
    have hmem : c ∈ more := by simp [hmore]
    have hdigit := digits_of_portNumber hport c (by rw [hlonger]; simp [hmem])
    rw [(h c hmem).2.2.2.2.2] at hdigit
    cases hdigit
  · rw [hlonger, lowerHost_append h hlower]
    intro heq
    exact hne (List.append_right_eq_self.1 heq)

end ProverNetwork.Verified.UrlParse
