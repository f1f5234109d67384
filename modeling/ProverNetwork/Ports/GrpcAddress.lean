import ProverNetwork.Ports.NodeAddress
import ProverNetwork.Verified.PyNumeral

/-!
# The gRPC addresses the hub accepts

`_validate_grpc_address` trims the address, splits it and reads the port with `int`;
`GrpcServer` is given the address as it came.  The grammar below is stated on that
address: white space at both ends, a host in brackets or before the last colon, and a
text `int` reads as a port number.

## Main results

* `splitHostPort_eq_ok_iff` — the host and the port that are checked are the ones
  written in the address.
* `grpc_grammar` — the addresses that are accepted.
-/

namespace ProverNetwork.Ports.NodeAddress

open ProverNetwork.Verified.PyText

/-- `host` and `port_text` are written in the text, the host in brackets or not. -/
def Writes (text : List Char) (host port_text : String) : Prop :=
  (text = '[' :: (host.toList ++ ']' :: ':' :: port_text.toList) ∧ ']' ∉ host.toList) ∨
      (['['].isPrefixOf text = false ∧ text = host.toList ++ ':' :: port_text.toList ∧
      ':' ∉ port_text.toList ∧ host ≠ "")

/-- `host` and `port_text` are written in the address, with white space around them. -/
def WrittenIn (address host port_text : String) : Prop :=
  ∃ before text after, address.toList = before ++ text ++ after ∧
    before.all isSpace = true ∧ after.all isSpace = true ∧ Trimmed isSpace text ∧
    Writes text host port_text

theorem partition_bracketed {front port_text : List Char} {text : List Char}
    (htext : text = '[' :: (front ++ ']' :: ':' :: port_text)) (hfront : ']' ∉ front) :
    partition ']' text = some ('[' :: front, ':' :: port_text) := by
  rw [htext, ← List.cons_append]
  apply partition_append
  intro hmem
  rcases List.mem_cons.1 hmem with heq | hfront'
  · exact absurd heq (by decide)
  · exact hfront hfront'

/-- **What is checked is what is written.** -/
theorem splitHostPort_eq_ok_iff {address host port_text : String} :
    splitHostPort address = .ok (host, port_text) ↔ WrittenIn address host port_text := by
  have hwritten : WrittenIn address host port_text ↔
      Writes (stripWhile isSpace address.toList) host port_text := by
    constructor
    · rintro ⟨before, text, after, hsplit, hbefore, hafter, htrimmed, hwrites⟩
      rw [stripWhile_eq_iff.2 ⟨before, after, hsplit, hbefore, hafter, htrimmed⟩]
      exact hwrites
    · intro hwrites
      obtain ⟨before, after, hsplit, hbefore, hafter, htrimmed⟩ :=
        stripWhile_eq_iff.1 (Eq.refl (stripWhile isSpace address.toList))
      exact ⟨before, _, after, hsplit, hbefore, hafter, htrimmed, hwrites⟩
  rw [hwritten]
  constructor
  · intro h
    rcases splitHostPort_ok h with ⟨htext, hhost⟩ | hplain
    · exact Or.inl ⟨by simpa using htext, hhost⟩
    · exact Or.inr hplain
  · intro hwrites
    unfold splitHostPort
    dsimp only
    generalize stripWhile isSpace address.toList = text at hwrites
    rcases hwrites with ⟨htext, hhost⟩ | ⟨hplain, htext, hport, hhost⟩
    · have hbracket : ['['].isPrefixOf text = true := by rw [htext]; rfl
      rw [if_pos hbracket, partition_bracketed htext hhost]
      simp
    · rw [if_neg (by simp [hplain]), htext, rpartition_append hport]
      have hne : host.toList ≠ [] := by simpa using hhost
      simp [hne]

section Grammar

variable {Ip Net : Type} {libs : Libs Ip Net} {allowed : Allowed Net}

/-- An empty host is never allowed. -/
theorem hostAllowed_empty (hlower : libs.lower "" = "") : hostAllowed libs allowed "" = false := by
  have hnormalize : normalize libs "" = "" := by
    rw [normalize, show strip "" = "" from rfl, hlower]
    rfl
  unfold hostAllowed
  rw [hnormalize]
  rfl

/-- **The addresses that are accepted**: a host and a port are written in the address,
`int` reads the port as a number in range, and the host is allowed.  What is checked is
what is written. -/
theorem grpc_grammar (hlower : libs.lower "" = "") (address : String) :
    (validateGrpcAddress libs allowed address = none ↔
      ∃ host port_text port, WrittenIn address host port_text ∧ IntText port_text port ∧
        1 ≤ port ∧ port ≤ 65535 ∧ host ≠ "" ∧ hostAllowed libs allowed host = true) ∧
    ∀ host port_text, splitHostPort address = .ok (host, port_text) ↔
      WrittenIn address host port_text := by
  refine ⟨?_, fun host port_text => splitHostPort_eq_ok_iff⟩
  rw [validateGrpcAddress_eq_none]
  constructor
  · rintro ⟨host, port_text, port, hsplit, hint, hlow, hhigh, hhost⟩
    refine ⟨host, port_text, port, splitHostPort_eq_ok_iff.1 hsplit, int_eq_ok_iff.1 hint, hlow,
      hhigh, ?_, hhost⟩
    intro hempty
    rw [hempty, hostAllowed_empty hlower] at hhost
    cases hhost
  · rintro ⟨host, port_text, port, hwritten, htext, hlow, hhigh, -, hhost⟩
    exact ⟨host, port_text, port, splitHostPort_eq_ok_iff.2 hwritten, int_eq_ok_iff.2 htext, hlow,
      hhigh, hhost⟩

end Grammar

/-- The same grammar with nothing around the text, and a port of ASCII digits. -/
def StrictlyWritten (libs : Libs Unit Unit) (allowed : Allowed Unit) (address : String) : Prop :=
  ∃ host port_text port, Writes address.toList host port_text ∧ port_text ≠ "" ∧
    (∀ c ∈ port_text.toList, '0' ≤ c ∧ c ≤ '9') ∧ IntText port_text port ∧
    1 ≤ port ∧ port ≤ 65535 ∧ host ≠ "" ∧ hostAllowed libs allowed host = true

/-- A blank, a sign and an underscore are accepted. -/
theorem loosePort_accepted :
    validateGrpcAddress onePublic ⟨[], []⟩ " 93.184.216.34:+50_051" = none ∧
      ¬ StrictlyWritten onePublic ⟨[], []⟩ " 93.184.216.34:+50_051" := by
  refine ⟨by decide +kernel, ?_⟩
  rintro ⟨host, port_text, port, hwrites, -, hdigits, -⟩
  have hcolon : ':' ∉ port_text.toList := by
    intro hmem
    exact absurd (hdigits ':' hmem) (by decide)
  have hlast : ∃ front, " 93.184.216.34:+50_051".toList = front ++ ':' :: port_text.toList := by
    rcases hwrites with ⟨htext, -⟩ | ⟨-, htext, -⟩
    · exact ⟨'[' :: (host.toList ++ [']']), by rw [htext]; simp⟩
    · exact ⟨host.toList, htext⟩
  obtain ⟨front, hfront⟩ := hlast
  have hsplit := rpartition_append hcolon front
  rw [← hfront] at hsplit
  have hport : "+50_051".toList = port_text.toList := by
    have hevaluated : rpartition ':' " 93.184.216.34:+50_051".toList =
        some (" 93.184.216.34".toList, "+50_051".toList) := by decide +kernel
    rw [hevaluated] at hsplit
    exact (Prod.mk.inj (Option.some.inj hsplit)).2
  rw [← hport] at hdigits
  exact absurd (hdigits '+' (by decide)) (by decide)

theorem loosePort_written :
    ∃ host port_text port, WrittenIn " 93.184.216.34:+50_051" host port_text ∧
      IntText port_text port ∧ 1 ≤ port ∧ port ≤ 65535 ∧ host ≠ "" ∧
      hostAllowed onePublic ⟨[], []⟩ host = true := by
  have hlower : onePublic.lower "" = "" := rfl
  exact (grpc_grammar hlower " 93.184.216.34:+50_051").1.1 (by decide +kernel)

end ProverNetwork.Ports.NodeAddress
