import ProverNetwork.Ports.CircomProverGuards

/-!
# The cells of a token

A token comes in rows of strings, each a byte in decimal notation.  The issuer
check reads the cells with `ParseUint` and stops at one that is no byte;
`MergeJWT` reads them with `Atoi`, drops its error and keeps the low byte.

## Main results

* `reconstruct_padded` — the token is found again behind its padding.
* `vouches_iff` — when the hash that was compared is that of the bytes which the
  cells denote.
-/

namespace ProverNetwork.Ports.CircomProver

open ProverNetwork.Verified

/-- The cells are the bytes in decimal notation. -/
def Denote (cells : List String) (bytes : List UInt8) : Prop :=
  List.Forall₂ (fun s b => Notates s b.toNat) cells bytes

/-- What `ParseUint` takes for a byte. -/
theorem notates_of_parseUint {s : String} {u : Nat} (h : parseUint 255 s.toList = .ok u) :
    Notates s (UInt8.ofNat u).toNat := by
  obtain ⟨hnotates, hle⟩ := (parseUint_eq_ok_iff s u).1 h
  have hbyte : (UInt8.ofNat u).toNat = u := by
    rw [UInt8.toNat_ofNat']
    omega
  exact hbyte.symm ▸ hnotates

theorem parseUint_of_notates {s : String} {b : UInt8} (h : Notates s b.toNat) :
    parseUint 255 s.toList = .ok b.toNat := by
  apply (parseUint_eq_ok_iff s b.toNat).2
  exact ⟨h, Nat.le_of_lt_succ b.toNat_lt⟩

/-- **The cells that are read** are those that denote bytes. -/
theorem parseBytes_eq_ok_iff {cells : List String} {buf : List UInt8} :
    parseBytes cells = .ok buf ↔ Denote cells buf := by
  induction cells generalizing buf with
  | nil =>
      constructor
      · intro h
        rw [← Except.ok.inj h]
        exact List.Forall₂.nil
      · intro h
        cases h
        rfl
  | cons s cells ih =>
      rw [parseBytes_cons_eq_ok]
      constructor
      · rintro ⟨u, rest, hu, hrest, rfl⟩
        exact .cons (notates_of_parseUint hu) (ih.1 hrest)
      · intro h
        cases h with
        | @cons _ b _ rest hnotates hrest =>
            exact ⟨b.toNat, rest, parseUint_of_notates hnotates, ih.2 hrest,
              by rw [UInt8.ofNat_toNat]⟩

/-- `MergeJWT` reads the cells alike. -/
theorem map_atoiByte {cells : List String} {bytes : List UInt8} (h : Denote cells bytes) :
    cells.map atoiByte = bytes :=
  (parseBytes_eq_ok (parseBytes_eq_ok_iff.2 h)).symm

/-! ## The token behind its padding -/

/-- The search skips the zeros at the end. -/
theorem findMessage_skip {buf : List UInt8} {f k : Nat} (hlen : buf.length = 8 * (f + k))
    (hzeros : buf.drop (8 * f) = List.replicate (8 * k) 0) :
    findMessage buf (f + k) = findMessage buf f := by
  have hskip : ∀ n ≤ k, findMessage buf (f + n) = findMessage buf f := by
    intro n
    induction n with
    | zero => exact fun _ => rfl
    | succ n ih =>
        intro hn
        have hblock : (buf.drop (buf.length % 8 + 8 * (f + n))).take 8 = List.replicate 8 0 := by
          rw [show buf.length % 8 + 8 * (f + n) = 8 * f + 8 * n by omega, ← List.drop_drop,
            hzeros, List.drop_replicate, List.take_replicate]
          congr 1
          omega
        have hzero : (List.replicate 8 (0 : UInt8)).all (· == 0) = true := by decide
        rw [show f + (n + 1) = f + n + 1 from rfl, findMessage, hblock]
        exact (if_pos hzero).trans (ih (by omega))
  exact hskip k (Nat.le_refl k)

/-- A block that is not zero ends the search. -/
theorem findMessage_block {buf block : List UInt8} {f : Nat} (hmod : buf.length % 8 = 0)
    (hblock : (buf.drop (8 * f)).take 8 = block) (hne : ∃ b ∈ block, b ≠ 0)
    (hlen : setBytes (block.drop 4) / 8 ≤ buf.length) :
    findMessage buf (f + 1) = .ok (buf.take (setBytes (block.drop 4) / 8)) := by
  have hnonzero : ¬block.all (· == 0) = true := by
    intro hall
    obtain ⟨b, hb, hne⟩ := hne
    exact hne (by simpa using List.all_eq_true.1 hall b hb)
  unfold findMessage
  simp only [hmod, Nat.zero_add, hblock]
  rw [if_neg hnonzero, if_neg (Nat.not_lt.2 hlen)]

/-- The last block of a padded message that is not zero, with zeros after it. -/
structure EndsIn (buf : List UInt8) (f : Nat) (block : List UInt8) (k : Nat) : Prop where
  take : (buf.drop (8 * f)).take 8 = block
  drop : buf.drop (8 * (f + 1)) = List.replicate (8 * k) 0
  length : buf.length = 8 * (f + 1 + k)
  nonzero : ∃ b ∈ block, b ≠ 0

theorem drop_beBytes (n : Nat) : (beBytes 8 n).drop 4 = beBytes 4 n := by
  rw [beBytes, beBytes, List.drop_reverse, length_leBytes]
  rfl

/-- The length field is the last block, except for the empty message, of which
the first block is left. -/
theorem pad_endsIn {m : List UInt8} (hm : m.length < 2 ^ 29) :
    ∃ f block k, EndsIn (Sha256.pad m) f block k ∧
      setBytes (block.drop 4) / 8 = m.length := by
  by_cases hempty : m = []
  · subst hempty
    refine ⟨0, 0x80 :: List.replicate 7 0, 7, ⟨by decide +kernel, by decide +kernel,
      by decide +kernel, 0x80, List.mem_cons_self, by decide⟩, by decide +kernel⟩
  · have hpos : 0 < m.length := List.length_pos_of_ne_nil hempty
    have hwhole : (Sha256.pad m).length % 64 = 0 := Sha256.length_pad_mod m
    obtain ⟨front, hpad, hfront⟩ : ∃ front, Sha256.pad m = front ++ beBytes 8 (8 * m.length) ∧
        (Sha256.pad m).length = front.length + 8 :=
      ⟨_, rfl, by rw [Sha256.pad, List.length_append, length_beBytes]⟩
    have hf : front.length = 8 * (front.length / 8) := by omega
    refine ⟨front.length / 8, beBytes 8 (8 * m.length), 0, ⟨?_, ?_, by omega, ?_⟩, ?_⟩
    · rw [← hf, hpad, List.drop_left, List.take_of_length_le (by simp)]
    · rw [List.drop_eq_nil_iff.2 (by omega)]
      rfl
    · by_contra hzero
      have hall : ∀ b ∈ beBytes 8 (8 * m.length), b = 0 := by
        intro b hb
        by_contra hne
        exact hzero ⟨b, hb, hne⟩
      have hreplicate := List.eq_replicate_iff.2 ⟨length_beBytes 8 (8 * m.length), hall⟩
      have hvalue := congrArg setBytes hreplicate
      rw [setBytes_beBytes (by omega), show setBytes (List.replicate 8 0) = 0 by decide] at hvalue
      omega
    · rw [drop_beBytes, setBytes_beBytes (by omega)]
      omega

theorem EndsIn.append_zeros {buf block : List UInt8} {f k : Nat} (h : EndsIn buf f block k)
    (j : Nat) : EndsIn (buf ++ List.replicate (8 * j) 0) f block (k + j) where
  take := by
    have hlen := h.length
    rw [List.drop_append_of_le_length (by omega), List.take_append_of_le_length, h.take]
    rw [List.length_drop]
    omega
  drop := by
    have hlen := h.length
    rw [List.drop_append_of_le_length (by omega), h.drop, List.replicate_append_replicate,
      Nat.mul_add]
  length := by
    rw [List.length_append, List.length_replicate, h.length]
    omega
  nonzero := h.nonzero

theorem take_pad (m : List UInt8) : (Sha256.pad m).take m.length = m := by
  rw [Sha256.pad, List.append_assoc, List.take_left]

/-- **The token is found again** behind its padding and any blocks of zeros, and
the merged bytes begin with it. -/
theorem reconstruct_padded (growth : Slice.Growth) {m : List UInt8} {z : Nat}
    {segments : List (List String)} (hm : m.length < 2 ^ 29) (hz : 8 ∣ z)
    (hcells : Denote segments.flatten (Sha256.pad m ++ List.replicate z 0)) :
    reconstructJWTFromSegments segments = .ok m ∧
      m <+: (mergeJWT growth segments).toList := by
  obtain ⟨j, rfl⟩ := hz
  obtain ⟨f, block, k, hends, hvalue⟩ := pad_endsIn hm
  have hbuf := hends.append_zeros j
  have hlen := hbuf.length
  have htake : (Sha256.pad m ++ List.replicate (8 * j) 0).take m.length = m := by
    rw [List.take_append_of_le_length, take_pad]
    rw [Sha256.pad, List.length_append, List.length_append]
    omega
  have hle : m.length ≤ (Sha256.pad m ++ List.replicate (8 * j) 0).length := by
    have hmin := congrArg List.length htake
    rw [List.length_take] at hmin
    omega
  constructor
  · unfold reconstructJWTFromSegments
    rw [parseBytes_eq_ok_iff.2 hcells]
    simp only [bind, Except.bind]
    rw [if_neg (by omega), hlen, Nat.mul_div_cancel_left _ (by decide),
      findMessage_skip hlen hbuf.drop,
      findMessage_block (by omega) hbuf.take hbuf.nonzero (hvalue.symm ▸ hle), hvalue, htake]
  · rw [mergeJWT, Slice.toList_appended, map_atoiByte hcells]
    exact ⟨_, htake ▸ List.take_append_drop _ _⟩

/-- The padding of three bytes in two rows, and a row of zeros. -/
def paddedSegments : List (List String) :=
  [["97", "098"], ((Sha256.pad [97, 98, 99]).drop 2).map (fun b => toString b.toNat),
    List.replicate 8 "00"]

theorem paddedSegments_reconstructed :
    reconstructJWTFromSegments paddedSegments = .ok [97, 98, 99] ∧
      [97, 98, 99] <+: (mergeJWT doubling paddedSegments).toList := by
  have hcells : Denote paddedSegments.flatten (Sha256.pad [97, 98, 99] ++ List.replicate 8 0) :=
    parseBytes_eq_ok_iff.1 (by decide +kernel)
  exact reconstruct_padded doubling (by decide) (Nat.dvd_refl 8) hcells

/-! ## The hash that was compared -/

/-- The message is what the first cells denote, and the cells of the hash are the
bits of its hash. -/
structure Vouches (length : Int32) (segments : List (List String)) (sha256 : List String)
    (message : List UInt8) : Prop where
  bounds : 0 ≤ length.toInt ∧ length.toInt ≤ segments.flatten.length
  cells : Denote (segments.flatten.take length.toInt.toNat) message
  count : sha256.length = 256
  bits : sha256 = (uint8ToBits (Sha256.sha256 message)).map String.singleton

/-- The length stays within the cells, `ParseUint` takes the first cells for
bytes, and the cells of the hash are single characters. -/
structure Plain (length : Int32) (segments : List (List String)) (sha256 : List String) :
    Prop where
  length_le : length.toInt ≤ segments.flatten.length
  bytes : ∀ s ∈ segments.flatten.take length.toInt.toNat, ∃ u, parseUint 255 s.toList = .ok u
  single : ∀ s ∈ sha256, s.length = 1

theorem length_uint8ToBits (data : List UInt8) :
    (uint8ToBits data).length = 8 * data.length := by
  rw [uint8ToBits, List.length_flatMap]
  simp [byteBits, Nat.mul_comm]

/-- Single characters are told apart in what `ConvertToBinaryString` makes of
them. -/
theorem eq_map_singleton {cells : List String} {bits : List Char}
    (hsingle : ∀ s ∈ cells, s.length = 1) (hbits : cells.flatMap String.toList = bits) :
    cells = bits.map String.singleton := by
  induction cells generalizing bits with
  | nil => rw [← hbits, List.flatMap_nil, List.map_nil]
  | cons s cells ih =>
      obtain ⟨hs, hrest⟩ := List.forall_mem_cons.1 hsingle
      obtain ⟨c, hc⟩ := List.length_eq_one_iff.1 (show s.toList.length = 1 from hs)
      have hsame : s = String.singleton c := by
        apply String.toList_injective
        rw [hc, String.toList_singleton]
      rw [← hbits, List.flatMap_cons, hc, List.map_append, ← ih hrest rfl, hsame]
      rfl

/-- Cells that `ParseUint` takes for bytes denote bytes, and no others do. -/
theorem exists_denote_iff {cells : List String} :
    (∃ bytes, Denote cells bytes) ↔ ∀ s ∈ cells, ∃ u, parseUint 255 s.toList = .ok u := by
  constructor
  · rintro ⟨bytes, h⟩
    induction h with
    | nil => exact List.forall_mem_nil _
    | @cons s b cells bytes hnotates h ih =>
        exact List.forall_mem_cons.2 ⟨⟨b.toNat, parseUint_of_notates hnotates⟩, ih⟩
  · intro h
    induction cells with
    | nil => exact ⟨[], List.Forall₂.nil⟩
    | cons s cells ih =>
        obtain ⟨⟨u, hu⟩, hrest⟩ := List.forall_mem_cons.1 h
        obtain ⟨bytes, hbytes⟩ := ih hrest
        exact ⟨UInt8.ofNat u :: bytes, .cons (notates_of_parseUint hu) hbytes⟩

/-- **A request that gets through has the hash of what its cells denote** if and
only if its cells are plain. -/
theorem vouches_iff {C : Type} {rpc : Rpc} {host : Host} {circuits : Dict String C}
    {req : ProveNosha256Request} {v : Validated C} {jsonData : List (String × GoValue)}
    {sha256 : List String} (h : validate rpc.codes host circuits req = .next v)
    (hjson : host.unmarshal req.Input = .ok jsonData)
    (hsha256 : GoValue.lookup jsonData "jwt_sha256" = .slice (sha256.map .str)) :
    Vouches req.Length v.jwtSegments sha256 v.message ↔
      Plain req.Length v.jwtSegments sha256 := by
  obtain ⟨hguarded, -⟩ := (validate_eq_next rpc.codes host circuits req v).1 h
  obtain ⟨data, cells, hdata, -, hcells, hbits⟩ := hguarded.input
  obtain ⟨w, hw, hmessage⟩ := hguarded.message
  have hsame : jsonData = data := Except.ok.inj (hjson.symm.trans hdata)
  have hstrs : sha256 = cells := by
    rw [← hsame, hsha256] at hcells
    exact List.map_injective_iff.2 (fun _ _ => GoValue.str.inj) (GoValue.slice.inj hcells)
  rw [← hstrs] at hbits
  constructor
  · intro hvouches
    refine ⟨hvouches.bounds.2, exists_denote_iff.1 ⟨_, hvouches.cells⟩, ?_⟩
    intro s hs
    rw [hvouches.bits] at hs
    obtain ⟨c, -, rfl⟩ := List.mem_map.1 hs
    exact String.length_singleton
  · intro hplain
    have hbounds := (Slice.subslice_returns _ 0 req.Length.toInt).1 ⟨w, hw, trivial⟩
    have htake : (v.jwtSegments.flatten.take req.Length.toInt.toNat).map atoiByte =
        v.message := by
      have hle : req.Length.toInt.toNat ≤ (v.jwtSegments.flatten.map atoiByte).length := by
        have hlength := hplain.length_le
        rw [List.length_map]
        omega
      rw [← hmessage, (Slice.subslice_zero hw).1, mergeJWT, Slice.appended,
        List.take_append_of_le_length hle, List.map_take]
    obtain ⟨bytes, hdenote⟩ := exists_denote_iff.2 hplain.bytes
    rw [map_atoiByte hdenote] at htake
    have hsingle := eq_map_singleton hplain.single hbits
    refine ⟨⟨by omega, hplain.length_le⟩, htake ▸ hdenote, ?_, hsingle⟩
    rw [hsingle, List.length_map, length_uint8ToBits, Sha256.sha256_length]

/-! ### Two requests -/

/-- The bits of the hash of a message, a cell each. -/
def bitCells (message : List UInt8) : List String :=
  (uint8ToBits (Sha256.sha256 message)).map String.singleton

def plainData : List (String × GoValue) :=
  [("jwt_segments", .slice [.slice [.str "097"]]),
    ("jwt_sha256", .slice ((bitCells [97]).map .str))]

def plainText : List UInt8 :=
  ascii "\x7b\"jwt_segments\":[[\"097\"]],\"jwt_sha256\":" ++ arrayText (bitCells [97]) ++
    ascii "\x7d"

theorem plainText_validated :
    validate (Rpc.ProveNosha256).codes (hostOf [(plainText, plainData)] [])
      (Dict.empty.set "1" ()) ⟨plainText, "1", 1⟩ = .next ⟨(), [["097"]], [97]⟩ := by
  have hlong : 1 < plainText.length := by
    rw [plainText, List.length_append, List.length_append]
    have hhead : 1 < (ascii "\x7b\"jwt_segments\":[[\"097\"]],\"jwt_sha256\":").length := by
      decide +kernel
    omega
  have hbits : (bitCells [97]).flatMap String.toList = uint8ToBits (Sha256.sha256 [97]) := by
    rw [bitCells, List.flatMap_map]
    simp
  have hmessage : ∃ w, (mergeJWT doubling [["097"]]).subslice 0 (1 : Int32).toInt = .ok w ∧
      w.toList = [97] := by
    obtain ⟨w, hw, hlist⟩ := @Slice.subslice_zero_ok _ (mergeJWT doubling [["097"]])
      (1 : Int32).toInt (by decide +kernel)
    exact ⟨w, hw, hlist.trans (by decide +kernel)⟩
  exact (validate_eq_next _ _ _ _ _).2 ⟨⟨rfl, rfl, hlong, ⟨plainData, bitCells [97],
    hostOf_unmarshal _ _ [] [], rfl, rfl, hbits⟩, hmessage⟩, fun hc => absurd hc (by decide)⟩

/-- The hash of a plain request is that of what its cell denotes. -/
theorem plainText_vouches : Vouches 1 [["097"]] (bitCells [97]) [97] := by
  have hplain : Plain 1 [["097"]] (bitCells [97]) := by
    refine ⟨by decide, ?_, ?_⟩
    · intro s hs
      rw [List.mem_singleton.1 (show s ∈ ["097"] from hs)]
      exact ⟨97, by decide⟩
    · intro s hs
      obtain ⟨c, -, rfl⟩ := List.mem_map.1 hs
      exact String.length_singleton
  exact (vouches_iff plainText_validated (hostOf_unmarshal plainText plainData [] []) rfl).2 hplain

/-- The bits of the hash of two zeros, in one cell. -/
def looseCells : List String := [String.ofList (uint8ToBits (Sha256.sha256 [0, 0]))]

/-- **A request that gets through with another hash**: its one cell is no byte,
its length goes past the cell, and the bits stand in one cell. -/
theorem looseText_not_vouched :
    validate (Rpc.ProveNosha256).codes
        (hostOf [(requestText [["256"]] [0, 0], requestData [["256"]] [0, 0])] [])
        (Dict.empty.set "1" ()) ⟨requestText [["256"]] [0, 0], "1", 2⟩ =
      .next ⟨(), [["256"]], [0, 0]⟩ ∧
    GoValue.lookup (requestData [["256"]] [0, 0]) "jwt_sha256" =
      .slice (looseCells.map .str) ∧
    (∀ bytes, ¬Denote ["256"] bytes) ∧ looseCells.length = 1 ∧
    ¬Vouches 2 [["256"]] looseCells [0, 0] := by
  refine ⟨(validate_eq_next _ _ _ _ _).2 ⟨guarded_hostOf ?_, fun hc => absurd hc (by decide)⟩,
    rfl, ?_, rfl, ?_⟩
  · obtain ⟨w, hw, hlist⟩ := @Slice.subslice_zero_ok _ (mergeJWT doubling [["256"]])
      (2 : Int32).toInt (by decide +kernel)
    exact ⟨w, hw, hlist.trans (by decide +kernel)⟩
  · intro bytes hbytes
    have hbad : parseBytes ["256"] = .error (.parseByte "256" .rangeError) := by decide
    rw [parseBytes_eq_ok_iff.2 hbytes] at hbad
    cases hbad
  · intro hvouches
    exact absurd hvouches.bounds.2 (by decide)

end ProverNetwork.Ports.CircomProver
