import AsioClientServer.Lib.Varint

/-!
# The proto3 wire format

A serialized message is a sequence of *tokens*, each a field number and a value of one of six
wire types. This module has the writer and the lenient reader of token sequences, and the generic
part of parsing a message: known fields are merged into it one after the other, whatever their
order and number, and the tokens of fields it does not know are kept.

* The writer (`encodeToken`) is canonical: the shortest varints, one tag byte where it fits.
* The reader (`decodeTokens`) takes what the C++ runtime takes: over-long varints (tags and
  lengths up to five bytes, values up to ten, the bits beyond their width dropped), any field
  number but 0, and groups of unknown fields nested up to a recursion limit (`mergeTokens`).
* `decodeTokens_encodeTokens` is the round trip on token sequences. Parsing a message from what
  was written of it is then a matter of merging its tokens (`parse_encodeTokens`).
-/

namespace Wire

/-! ## Tokens -/

/-- A field value, with its wire type. The start and the end of a group are tokens of their own,
so that a message is a flat list of tokens. -/
inductive Value where
  | varint (v : UInt64)
  | fixed64 (v : UInt64)
  | bytes (bs : Bytes)
  | startGroup
  | endGroup
  | fixed32 (v : UInt32)
  deriving DecidableEq, Repr

/-- The number that stands for the kind of value in the low three bits of a tag. -/
def Value.wireType : Value → Nat
  | .varint _ => 0
  | .fixed64 _ => 1
  | .bytes _ => 2
  | .startGroup => 3
  | .endGroup => 4
  | .fixed32 _ => 5

/-- A field as it stands on the wire. Which field the number means, and whether the wire type fits
it, is left to the schema of a message. -/
structure Token where
  number : Nat
  value : Value
  deriving DecidableEq, Repr

/-- The largest length-delimited field, and the largest message: 2 GiB less one byte. -/
def maxLength : Nat := 2 ^ 31 - 1

/-- A token the wire can hold: field numbers have 29 bits and are not 0. A byte string has its
length on the wire, which is limited too. -/
def Token.WellFormed (t : Token) : Prop :=
  0 < t.number ∧ t.number < 2 ^ 29 ∧ ∀ bs, t.value = .bytes bs → bs.length ≤ maxLength

/-- A value as it is written after its tag. A group has no value of its own: what stands between its
two tokens are tokens. -/
def encodeValue : Value → Bytes
  | .varint v => encodeVarint v.toNat
  | .fixed64 v => toLE 8 v.toNat
  | .bytes bs => encodeVarint bs.length ++ bs
  | .startGroup => []
  | .endGroup => []
  | .fixed32 v => toLE 4 v.toNat

/-- The tag, a varint of the field number and the wire type, and the value. The mark of a group has
no value behind its tag. -/
def encodeToken (t : Token) : Bytes :=
  encodeVarint (8 * t.number + t.value.wireType) ++ encodeValue t.value

/-- The tokens one after the other, with nothing in between: neither a message nor a group has a
length. -/
def encodeTokens (ts : List Token) : Bytes :=
  ts.flatMap encodeToken

@[simp] theorem encodeTokens_nil : encodeTokens [] = [] := rfl

@[simp] theorem encodeTokens_cons (t : Token) (ts : List Token) :
    encodeTokens (t :: ts) = encodeToken t ++ encodeTokens ts := rfl

/-- Two messages written one after the other are the message with the fields of both, which is why a
parser has to take fields in any order. -/
@[simp] theorem encodeTokens_append (ts us : List Token) :
    encodeTokens (ts ++ us) = encodeTokens ts ++ encodeTokens us := List.flatMap_append

/-- The value of a wire type at the start of a byte string, and the bytes after it. It is `none`
when the bytes end inside it, when a length is too large, and for the two wire types that do not
exist. -/
def decodeValue (wireType : Nat) (bs : Bytes) : Option (Value × Bytes) :=
  match wireType with
  | 0 => (decodeVarint 10 bs).map fun r => (.varint (UInt64.ofNat r.1), r.2)
  | 1 =>
    if 8 ≤ bs.length then some (.fixed64 (UInt64.ofNat (ofLE (bs.take 8))), bs.drop 8) else none
  | 2 =>
    (decodeVarint 5 bs).bind fun r =>
      if r.1 ≤ maxLength ∧ r.1 ≤ r.2.length then some (.bytes (r.2.take r.1), r.2.drop r.1)
      else none
  | 3 => some (.startGroup, bs)
  | 4 => some (.endGroup, bs)
  | 5 =>
    if 4 ≤ bs.length then some (.fixed32 (UInt32.ofNat (ofLE (bs.take 4))), bs.drop 4) else none
  | _ => none

/-- The token at the start of a byte string. A tag is a 32-bit number: the three low bits are
the wire type, the others the field number, which must not be 0. -/
def decodeToken (bs : Bytes) : Option (Token × Bytes) :=
  (decodeVarint 5 bs).bind fun r =>
    let tag := r.1 % 2 ^ 32
    if tag / 8 = 0 then none
    else (decodeValue (tag % 8) r.2).map fun v => (⟨tag / 8, v.1⟩, v.2)

/-- The tokens of a byte string, `none` when it does not end with a token. Every token has a
byte at least, so the number of bytes is fuel enough. -/
def decodeTokensAux : Nat → Bytes → Option (List Token)
  | _, [] => some []
  | 0, _ :: _ => none
  | fuel + 1, b :: bs =>
    (decodeToken (b :: bs)).bind fun r => (decodeTokensAux fuel r.2).map (r.1 :: ·)

/-- All tokens of a byte string. The fuel is the number of bytes, and every token takes one at
least. -/
def decodeTokens (bs : Bytes) : Option (List Token) :=
  decodeTokensAux bs.length bs

/-! ## Tokens round trip -/

/-- A value is read back, whatever comes after it. The wire type that is in the tag is the one of
the value, and the rest is left for the next token. -/
theorem decodeValue_encodeValue (v : Value) (hlen : ∀ bs, v = .bytes bs → bs.length ≤ maxLength)
    (rest : Bytes) : decodeValue v.wireType (encodeValue v ++ rest) = some (v, rest) := by
  cases v with
  | varint v =>
    have hv := v.toNat_lt
    have hround := decodeVarint_encodeVarint (k := 10) (n := v.toNat)
      (Nat.le_refl _) (Nat.le_refl _) (by decide) (by omega) rest
    simp [Value.wireType, encodeValue, decodeValue, hround]
  | fixed64 v =>
    have hv := v.toNat_lt
    have htake : (toLE 8 v.toNat ++ rest).take 8 = toLE 8 v.toNat :=
      List.take_left' (toLE_length 8 v.toNat)
    have hdrop : (toLE 8 v.toNat ++ rest).drop 8 = rest :=
      List.drop_left' (toLE_length 8 v.toNat)
    have hround : ofLE (toLE 8 v.toNat) = v.toNat := ofLE_toLE 8 (by omega)
    simp [Value.wireType, encodeValue, decodeValue, htake, hdrop, hround]
  | bytes bs =>
    have hlen := hlen bs rfl
    have hround := decodeVarint_encodeVarint (k := 5) (n := bs.length)
      (Nat.le_refl _) (by decide) (by decide) (by simp only [maxLength] at hlen; omega)
      (bs ++ rest)
    simp [Value.wireType, encodeValue, decodeValue, hround, hlen]
  | startGroup => rfl
  | endGroup => rfl
  | fixed32 v =>
    have hv := v.toNat_lt
    have htake : (toLE 4 v.toNat ++ rest).take 4 = toLE 4 v.toNat :=
      List.take_left' (toLE_length 4 v.toNat)
    have hdrop : (toLE 4 v.toNat ++ rest).drop 4 = rest :=
      List.drop_left' (toLE_length 4 v.toNat)
    have hround : ofLE (toLE 4 v.toNat) = v.toNat := ofLE_toLE 4 (by omega)
    simp [Value.wireType, encodeValue, decodeValue, htake, hdrop, hround]

theorem Value.wireType_lt (v : Value) : v.wireType < 8 := by
  cases v <;> simp [Value.wireType]

/-- A token is read back, whatever comes after it: the tag gives the number and the wire type, and
the wire type says how the value is read. -/
theorem decodeToken_encodeToken {t : Token} (ht : t.WellFormed) (rest : Bytes) :
    decodeToken (encodeToken t ++ rest) = some (t, rest) := by
  obtain ⟨hpos, hlt, hlen⟩ := ht
  have hw := t.value.wireType_lt
  have htag := decodeVarint_encodeVarint (k := 5)
    (n := 8 * t.number + t.value.wireType) (Nat.le_refl _) (by decide) (by decide) (by omega)
    (encodeValue t.value ++ rest)
  have hmod : (8 * t.number + t.value.wireType) % 2 ^ 32 = 8 * t.number + t.value.wireType := by
    omega
  have hnum : (8 * t.number + t.value.wireType) / 8 = t.number := by omega
  have hwire : (8 * t.number + t.value.wireType) % 8 = t.value.wireType := by omega
  rw [decodeToken, encodeToken, List.append_assoc, htag, Option.bind_some]
  simp only [hmod, hnum, hwire]
  rw [if_neg (by omega), decodeValue_encodeValue t.value hlen rest, Option.map_some]

theorem encodeToken_ne_nil (t : Token) : encodeToken t ≠ [] := by
  have hpos := encodeVarint_length_pos (8 * t.number + t.value.wireType)
  intro h
  rw [encodeToken, List.append_eq_nil_iff] at h
  rw [h.1] at hpos
  simp at hpos

/-- Only a list without tokens is written as nothing. -/
theorem encodeTokens_eq_nil_iff {ts : List Token} : encodeTokens ts = [] ↔ ts = [] := by
  cases ts with
  | nil => simp
  | cons t ts => simp [encodeToken_ne_nil t]

/-- There are no more tokens than bytes, so the number of bytes is enough fuel to read them. -/
theorem length_le_encodeTokens_length (ts : List Token) :
    ts.length ≤ (encodeTokens ts).length := by
  induction ts with
  | nil => rfl
  | cons t ts ih =>
    have hpos := List.length_pos_iff.mpr (encodeToken_ne_nil t)
    rw [encodeTokens_cons, List.length_cons, List.length_append]
    omega

/-- The reader gives back the tokens, with fuel for each of them. Induction on the tokens. -/
theorem decodeTokensAux_encodeTokens {fuel : Nat} {ts : List Token} (hfuel : ts.length ≤ fuel)
    (hts : ∀ t ∈ ts, t.WellFormed) : decodeTokensAux fuel (encodeTokens ts) = some ts := by
  induction ts generalizing fuel with
  | nil => cases fuel <;> rfl
  | cons t ts ih =>
    rw [List.length_cons] at hfuel
    obtain ⟨fuel, rfl⟩ : ∃ f, fuel = f + 1 := ⟨fuel - 1, by omega⟩
    obtain ⟨b, bs, hcons⟩ := List.exists_cons_of_ne_nil (encodeToken_ne_nil t)
    have htoken := decodeToken_encodeToken (hts t List.mem_cons_self) (encodeTokens ts)
    rw [encodeTokens_cons, hcons, List.cons_append]
    rw [hcons, List.cons_append] at htoken
    rw [decodeTokensAux, htoken, Option.bind_some,
      ih (by omega) (fun u hu => hts u (List.mem_cons_of_mem t hu)), Option.map_some]

/-- **Token round trip.** The reader gives back the tokens the writer was given. So a message is
lost or changed only where tokens are merged into fields, never on the wire. -/
theorem decodeTokens_encodeTokens {ts : List Token} (hts : ∀ t ∈ ts, t.WellFormed) :
    decodeTokens (encodeTokens ts) = some ts :=
  decodeTokensAux_encodeTokens (length_le_encodeTokens_length ts) hts

/-! ## Messages

What is specific to a message type is how a token of one of its fields is merged into it; a
token it does not know is kept with it. -/

/-- What a message makes of a token outside any group. It is a field of the message, a field with a
value it refuses, or nothing it knows. -/
inductive Merged (M : Type) where
  /-- A field of the message: its value with the field set. -/
  | known (m : M)
  /-- A field of the message whose value is refused. -/
  | refused
  /-- Not a field of the message, or not of the wire type the field has. -/
  | unknown
  deriving DecidableEq, Repr

/-- What is particular to a message type. `parse` is the same for all of them. A message type says
which tokens set a field, which it refuses, and how it keeps the others. -/
structure Schema (M : Type) where
  /-- What a token does outside any group. -/
  merge : M → Token → Merged M
  /-- How a token is kept that is not a field. -/
  keepUnknown : M → Token → M

/-- How deep groups may be nested, the default of the C++ runtime. -/
def recursionLimit : Nat := 100

/-- Merge one token into a message. The list holds the numbers of the open groups, the innermost
first: what stands in a group is unknown, and a group must end with its own number. -/
def mergeToken {M : Type} (S : Schema M) (groups : List Nat) (m : M) (t : Token) :
    Option (List Nat × M) :=
  match t.value, groups with
  | .startGroup, _ =>
    if groups.length < recursionLimit then some (t.number :: groups, S.keepUnknown m t) else none
  | .endGroup, [] => none
  | .endGroup, n :: outer => if n = t.number then some (outer, S.keepUnknown m t) else none
  | _, _ :: _ => some (groups, S.keepUnknown m t)
  | _, [] =>
    match S.merge m t with
    | .known m' => some ([], m')
    | .refused => none
    | .unknown => some ([], S.keepUnknown m t)

/-- Merge tokens into a message. It must not end inside a group. The list of the open groups is the
state of the merge, so that a group is kept as a whole. -/
def mergeTokens {M : Type} (S : Schema M) : List Nat → M → List Token → Option M
  | groups, m, [] => if groups = [] then some m else none
  | groups, m, t :: ts => (mergeToken S groups m t).bind fun r => mergeTokens S r.1 r.2 ts

/-- Parse a message: the tokens of the bytes merged into the empty message. It fails for bytes that
are no tokens, for values a field refuses, and for groups that do not match. -/
def parse {M : Type} (S : Schema M) (empty : M) (bs : Bytes) : Option M :=
  (decodeTokens bs).bind (mergeTokens S [] empty)

section Merge

variable {M : Type} {S : Schema M}

@[simp] theorem mergeTokens_nil (m : M) : mergeTokens S [] m [] = some m := rfl

/-- A token of a field, outside any group, sets the field. With this the parse of a message that was
written is computed field by field. -/
theorem mergeTokens_cons_known {m k : M} {t : Token} (ts : List Token)
    (hs : t.value ≠ .startGroup) (he : t.value ≠ .endGroup) (h : S.merge m t = .known k) :
    mergeTokens S [] m (t :: ts) = mergeTokens S [] k ts := by
  have hmerge : mergeToken S [] m t = some ([], k) := by
    obtain ⟨number, value⟩ := t
    cases value with
    | startGroup => exact absurd rfl hs
    | endGroup => exact absurd rfl he
    | varint _ | fixed64 _ | bytes _ | fixed32 _ => simp only [mergeToken, h]
  rw [mergeTokens, hmerge, Option.bind_some]

/-- A field whose value is refused ends the parse. -/
theorem mergeTokens_cons_refused {m : M} {t : Token} (ts : List Token)
    (hs : t.value ≠ .startGroup) (he : t.value ≠ .endGroup) (h : S.merge m t = .refused) :
    mergeTokens S [] m (t :: ts) = none := by
  have hmerge : mergeToken S [] m t = none := by
    obtain ⟨number, value⟩ := t
    cases value with
    | startGroup => exact absurd rfl hs
    | endGroup => exact absurd rfl he
    | varint _ | fixed64 _ | bytes _ | fixed32 _ => simp only [mergeToken, h]
  rw [mergeTokens, hmerge, Option.bind_none]

/-- **Parsing what was written is merging the tokens that were written.** The round trip of the
bytes is done here once; what is left is particular to a message type. -/
theorem parse_encodeTokens {empty : M} {ts : List Token} (hts : ∀ t ∈ ts, t.WellFormed) :
    parse S empty (encodeTokens ts) = mergeTokens S [] empty ts := by
  rw [parse, decodeTokens_encodeTokens hts, Option.bind_some]

end Merge

/-! ## Sizes

What is read and written again does not get longer: the writer uses the shortest varints, and a
parse drops bits and repeated fields. -/

/-- A value that is written again is not longer than the bytes it was read from, and its wire type
is the one the tag had. -/
theorem decodeValue_length {wireType : Nat} {bs rest : Bytes} {v : Value}
    (h : decodeValue wireType bs = some (v, rest)) :
    v.wireType = wireType ∧ (encodeValue v).length + rest.length ≤ bs.length := by
  unfold decodeValue at h
  split at h
  · obtain ⟨r, hr, heq⟩ := Option.map_eq_some_iff.mp h
    obtain ⟨rfl, rfl⟩ := Prod.mk.inj heq
    refine ⟨rfl, ?_⟩
    -- a varint that does not fit 64 bits is cut, and is not longer when it is written again
    have hmono := encodeVarint_length_mono (a := (UInt64.ofNat r.1).toNat) (b := r.1)
      (by rw [UInt64.toNat_ofNat']; exact Nat.mod_le _ _)
    have hlen := encodeVarint_length_le_of_decode hr
    rw [encodeValue]
    omega
  · split at h
    · obtain ⟨rfl, rfl⟩ := Prod.mk.inj (Option.some.inj h)
      refine ⟨rfl, ?_⟩
      rw [encodeValue, toLE_length, List.length_drop]
      omega
    · cases h
  · obtain ⟨r, hr, h⟩ := Option.bind_eq_some_iff.mp h
    split at h
    · next hle =>
      obtain ⟨rfl, rfl⟩ := Prod.mk.inj (Option.some.inj h)
      refine ⟨rfl, ?_⟩
      -- the length of the string may have been written with more bytes than it needs
      have hlen := encodeVarint_length_le_of_decode hr
      have htake : (r.2.take r.1).length = r.1 := List.length_take_of_le hle.2
      rw [encodeValue, List.length_append, htake, List.length_drop]
      omega
    · cases h
  · obtain ⟨rfl, rfl⟩ := Prod.mk.inj (Option.some.inj h)
    exact ⟨rfl, by simp [encodeValue]⟩
  · obtain ⟨rfl, rfl⟩ := Prod.mk.inj (Option.some.inj h)
    exact ⟨rfl, by simp [encodeValue]⟩
  · split at h
    · obtain ⟨rfl, rfl⟩ := Prod.mk.inj (Option.some.inj h)
      refine ⟨rfl, ?_⟩
      rw [encodeValue, toLE_length, List.length_drop]
      omega
    · cases h
  · cases h

/-- A token that is written again is not longer than the bytes it was read from: the tag may have
been over-long, and so may the value. -/
theorem decodeToken_length {bs rest : Bytes} {t : Token} (h : decodeToken bs = some (t, rest)) :
    (encodeToken t).length + rest.length ≤ bs.length := by
  obtain ⟨r, hr, h⟩ := Option.bind_eq_some_iff.mp h
  simp only at h
  split at h
  · cases h
  · obtain ⟨v, hv, heq⟩ := Option.map_eq_some_iff.mp h
    obtain ⟨rfl, rfl⟩ := Prod.mk.inj heq
    obtain ⟨hwire, hvalue⟩ := decodeValue_length hv
    have htag : 8 * (r.1 % 2 ^ 32 / 8) + v.1.wireType ≤ r.1 := by
      have := Nat.mod_le r.1 (2 ^ 32)
      omega
    have hmono := encodeVarint_length_mono htag
    have hlen := encodeVarint_length_le_of_decode hr
    simp only [encodeToken, List.length_append]
    omega

/-- Tokens that are written again are not longer, for any fuel. Induction on the fuel. -/
theorem decodeTokensAux_length {fuel : Nat} {bs : Bytes} {ts : List Token}
    (h : decodeTokensAux fuel bs = some ts) : (encodeTokens ts).length ≤ bs.length := by
  induction fuel generalizing bs ts with
  | zero =>
    cases bs with
    | nil =>
      obtain rfl := Option.some.inj h
      exact Nat.le_refl 0
    | cons b bs => cases h
  | succ fuel ih =>
    cases bs with
    | nil =>
      obtain rfl := Option.some.inj h
      exact Nat.le_refl 0
    | cons b bs =>
      obtain ⟨r, hr, h⟩ := Option.bind_eq_some_iff.mp h
      obtain ⟨us, hus, rfl⟩ := Option.map_eq_some_iff.mp h
      have htoken := decodeToken_length hr
      have htokens := ih hus
      rw [encodeTokens_cons, List.length_append]
      omega

/-- **Tokens that are written again are not longer.** What is read may have been written with longer
varints than needed, and those are what the writer saves. -/
theorem decodeTokens_length {bs : Bytes} {ts : List Token} (h : decodeTokens bs = some ts) :
    (encodeTokens ts).length ≤ bs.length :=
  decodeTokensAux_length h

/-- A fixed-width field that takes up five bytes has a tag of one byte. -/
theorem fixed32_of_decodeToken {b : UInt8} {bs : Bytes} {number : Nat} {v : UInt32}
    (h : decodeToken (b :: bs) = some (⟨number, .fixed32 v⟩, [])) (hlen : bs.length = 4) :
    b.toNat = 8 * number + 5 ∧ v = UInt32.ofNat (ofLE bs) := by
  obtain ⟨r, hr, h⟩ := Option.bind_eq_some_iff.mp h
  simp only at h
  split at h
  · cases h
  · obtain ⟨w, hw, heq⟩ := Option.map_eq_some_iff.mp h
    simp only [Prod.mk.injEq, Token.mk.injEq] at heq
    obtain ⟨⟨hnumber, hv⟩, hrest⟩ := heq
    have hwire : r.1 % 2 ^ 32 % 8 = 5 := by
      have := (decodeValue_length hw).1
      rw [hv] at this
      exact this.symm
    rw [hwire] at hw
    simp only [decodeValue] at hw
    split at hw
    · next hfour =>
      obtain rfl := Option.some.inj hw
      simp only [Value.fixed32.injEq] at hv
      simp only [List.drop_eq_nil_iff] at hrest
      -- four bytes are left, so the tag is the byte before them
      rw [decodeVarint] at hr
      split at hr
      · obtain rfl := Option.some.inj hr
        have hb := b.toNat_lt
        rw [List.take_of_length_le hrest] at hv
        refine ⟨?_, hv.symm⟩
        simp only at hnumber hwire
        omega
      · obtain ⟨r', hr', rfl⟩ := Option.map_eq_some_iff.mp hr
        have hlt := decodeVarint_length_lt hr'
        simp only at hfour
        omega
    · cases hw

section Weight

variable {M : Type} {S : Schema M}

/-- What a token does to a message, inside a group or outside: it sets a field, or it is kept. -/
theorem mergeToken_cases {groups groups' : List Nat} {m m' : M} {t : Token}
    (h : mergeToken S groups m t = some (groups', m')) :
    S.merge m t = .known m' ∨ m' = S.keepUnknown m t := by
  unfold mergeToken at h
  split at h
  · split at h
    · exact Or.inr (Prod.mk.inj (Option.some.inj h)).2.symm
    · cases h
  · cases h
  · split at h
    · exact Or.inr (Prod.mk.inj (Option.some.inj h)).2.symm
    · cases h
  · exact Or.inr (Prod.mk.inj (Option.some.inj h)).2.symm
  · split at h
    · next hm =>
      obtain ⟨-, rfl⟩ := Prod.mk.inj (Option.some.inj h)
      exact Or.inl hm
    · cases h
    · exact Or.inr (Prod.mk.inj (Option.some.inj h)).2.symm

/-- **A weight that grows by no more than each token bounds the weight of the parsed message.**
Induction on the tokens. -/
theorem mergeTokens_weight_le (weight : M → Nat)
    (hknown : ∀ m m' t, S.merge m t = .known m' → weight m' ≤ weight m + (encodeToken t).length)
    (hkeep : ∀ m t, weight (S.keepUnknown m t) ≤ weight m + (encodeToken t).length)
    {groups : List Nat} {m m' : M} {ts : List Token} (h : mergeTokens S groups m ts = some m') :
    weight m' ≤ weight m + (encodeTokens ts).length := by
  induction ts generalizing groups m with
  | nil =>
    rw [mergeTokens] at h
    split at h
    · obtain rfl := Option.some.inj h
      simp
    · cases h
  | cons t ts ih =>
    obtain ⟨r, hr, h⟩ := Option.bind_eq_some_iff.mp h
    have hle := ih h
    have hstep : weight r.2 ≤ weight m + (encodeToken t).length := by
      rcases mergeToken_cases hr with hm | hm
      · exact hknown _ _ _ hm
      · rw [hm]
        exact hkeep _ _
    rw [encodeTokens_cons, List.length_append]
    omega

/-- **A weight that no token raises by more than its length** bounds the parsed message by the
bytes. -/
theorem parse_weight_le (weight : M → Nat)
    (hknown : ∀ m m' t, S.merge m t = .known m' → weight m' ≤ weight m + (encodeToken t).length)
    (hkeep : ∀ m t, weight (S.keepUnknown m t) ≤ weight m + (encodeToken t).length)
    {empty m : M} {bs : Bytes} (h : parse S empty bs = some m) :
    weight m ≤ weight empty + bs.length := by
  obtain ⟨ts, hts, h⟩ := Option.bind_eq_some_iff.mp h
  have hmerge := mergeTokens_weight_le weight hknown hkeep h
  have hlen := decodeTokens_length hts
  omega

end Weight

/-! ## Reading again what was kept

The tokens a parse has kept are read back as they are: whether a token is kept depends on the open
groups and on its number and wire type, not on the message it is merged into. -/

/-- A byte string that has been read fits its length. -/
theorem bytes_length_of_decodeValue {wireType : Nat} {bs b rest : Bytes}
    (h : decodeValue wireType bs = some (.bytes b, rest)) : b.length ≤ maxLength := by
  unfold decodeValue at h
  split at h
  · obtain ⟨r, -, heq⟩ := Option.map_eq_some_iff.mp h
    cases heq
  · split at h <;> cases h
  · obtain ⟨r, -, h⟩ := Option.bind_eq_some_iff.mp h
    split at h
    · next hle =>
      obtain ⟨heq, -⟩ := Prod.mk.inj (Option.some.inj h)
      obtain rfl := Value.bytes.inj heq
      exact (List.length_take_le _ _).trans hle.1
    · cases h
  · cases h
  · cases h
  · split at h <;> cases h
  · cases h

/-- A token that has been read can be written: its number and its length are in their bounds. -/
theorem wellFormed_of_decodeToken {bs rest : Bytes} {t : Token}
    (h : decodeToken bs = some (t, rest)) : t.WellFormed := by
  obtain ⟨r, -, h⟩ := Option.bind_eq_some_iff.mp h
  simp only at h
  split at h
  · cases h
  · next hnumber =>
    obtain ⟨v, hv, heq⟩ := Option.map_eq_some_iff.mp h
    obtain ⟨rfl, rfl⟩ := Prod.mk.inj heq
    have hlt : r.1 % 2 ^ 32 < 2 ^ 32 := Nat.mod_lt _ (by decide)
    have hfield : r.1 % 2 ^ 32 / 8 < 2 ^ 29 := by omega
    refine ⟨Nat.pos_of_ne_zero hnumber, hfield, ?_⟩
    intro b hb
    exact bytes_length_of_decodeValue (hv.trans (by rw [← hb]))

/-- **Tokens that have been read can be written.** With the token round trip: writing what was read
and reading it again gives the same tokens. -/
theorem wellFormed_of_decodeTokensAux {fuel : Nat} {bs : Bytes} {ts : List Token}
    (h : decodeTokensAux fuel bs = some ts) : ∀ t ∈ ts, t.WellFormed := by
  induction fuel generalizing bs ts with
  | zero =>
    cases bs with
    | nil =>
      obtain rfl := Option.some.inj h
      simp
    | cons b bs => cases h
  | succ fuel ih =>
    cases bs with
    | nil =>
      obtain rfl := Option.some.inj h
      simp
    | cons b bs =>
      obtain ⟨r, hr, h⟩ := Option.bind_eq_some_iff.mp h
      obtain ⟨us, hus, rfl⟩ := Option.map_eq_some_iff.mp h
      exact List.forall_mem_cons.mpr ⟨wellFormed_of_decodeToken hr, ih hus⟩

section Kept

variable {M : Type} {S : Schema M}

/-- Whether a token is unknown does not depend on the message. Messages that do not have this would
lose or keep a field depending on what came before it. -/
def Schema.Uniform (S : Schema M) : Prop :=
  ∀ m k t, S.merge m t = .unknown → S.merge k t = .unknown

/-- **A token sets a field, or it is kept whatever the message is.** So the unknown tokens can be
collected on their own, without the fields. -/
theorem mergeToken_kept (hS : S.Uniform) {groups groups' : List Nat} {m m' : M} {t : Token}
    (h : mergeToken S groups m t = some (groups', m')) :
    (groups = [] ∧ groups' = [] ∧ S.merge m t = .known m') ∨
      (m' = S.keepUnknown m t ∧
        ∀ k, mergeToken S groups k t = some (groups', S.keepUnknown k t)) := by
  obtain ⟨number, value⟩ := t
  -- the marks of a group are kept with what they enclose; other tokens are read outside groups only
  cases value with
  | startGroup =>
    simp only [mergeToken] at h ⊢
    split at h
    · next hdepth =>
      obtain ⟨rfl, rfl⟩ := Prod.mk.inj (Option.some.inj h)
      exact Or.inr ⟨rfl, fun k => if_pos hdepth⟩
    · cases h
  | endGroup =>
    cases groups with
    | nil => cases h
    | cons n outer =>
      simp only [mergeToken] at h ⊢
      split at h
      · next hn =>
        obtain ⟨rfl, rfl⟩ := Prod.mk.inj (Option.some.inj h)
        exact Or.inr ⟨rfl, fun k => if_pos hn⟩
      · cases h
  | varint _ | fixed64 _ | bytes _ | fixed32 _ =>
    cases groups with
    | cons n outer =>
      obtain ⟨rfl, rfl⟩ := Prod.mk.inj (Option.some.inj h)
      exact Or.inr ⟨rfl, fun k => rfl⟩
    | nil =>
      simp only [mergeToken] at h
      split at h
      · next hm =>
        obtain ⟨rfl, rfl⟩ := Prod.mk.inj (Option.some.inj h)
        exact Or.inl ⟨rfl, rfl, hm⟩
      · cases h
      · next hm =>
        obtain ⟨rfl, rfl⟩ := Prod.mk.inj (Option.some.inj h)
        exact Or.inr ⟨rfl, fun k => by simp only [mergeToken, hS _ k _ hm]⟩

/-- **What a parse keeps is kept again.** `kept` is what is stored of the tokens that are not
fields. Induction on the tokens. -/
theorem mergeTokens_kept (hS : S.Uniform) (kept : M → List Token)
    (hknown : ∀ m m' t, S.merge m t = .known m' → kept m' = kept m)
    (hkeep : ∀ m t, kept (S.keepUnknown m t) = kept m ++ [t])
    {groups : List Nat} {m m' : M} {ts : List Token} (h : mergeTokens S groups m ts = some m') :
    ∃ us, kept m' = kept m ++ us ∧ (∀ t ∈ us, t ∈ ts) ∧
      ∀ k, mergeTokens S groups k us = some (us.foldl S.keepUnknown k) := by
  induction ts generalizing groups m with
  | nil =>
    rw [mergeTokens] at h
    split at h
    · next hnil =>
      obtain rfl := Option.some.inj h
      refine ⟨[], by simp, by simp, fun k => ?_⟩
      rw [hnil, mergeTokens_nil, List.foldl_nil]
    · cases h
  | cons t ts ih =>
    obtain ⟨⟨groups', m₁⟩, hr, h⟩ := Option.bind_eq_some_iff.mp h
    obtain ⟨us, hus, hmem, hagain⟩ := ih h
    rcases mergeToken_kept hS hr with ⟨rfl, rfl, hm⟩ | ⟨rfl, hk⟩
    · refine ⟨us, ?_, fun u hu => List.mem_cons_of_mem _ (hmem u hu), hagain⟩
      rw [hus, hknown _ _ _ hm]
    · refine ⟨t :: us, ?_, ?_, fun k => ?_⟩
      · rw [hus, hkeep, List.append_assoc, List.singleton_append]
      · exact List.forall_mem_cons.mpr
          ⟨List.mem_cons_self, fun u hu => List.mem_cons_of_mem _ (hmem u hu)⟩
      · rw [mergeTokens, hk, Option.bind_some, hagain, List.foldl_cons]

/-- **A property of the fields.** What holds of the empty message and is kept by every token holds
of every message that is parsed. -/
theorem mergeTokens_invariant {P : M → Prop}
    (hknown : ∀ m m' t, P m → S.merge m t = .known m' → P m')
    (hkeep : ∀ m t, P m → P (S.keepUnknown m t)) {groups : List Nat} {m m' : M}
    {ts : List Token} (hm : P m) (h : mergeTokens S groups m ts = some m') : P m' := by
  induction ts generalizing groups m with
  | nil =>
    rw [mergeTokens] at h
    split at h
    · obtain rfl := Option.some.inj h
      exact hm
    · cases h
  | cons t ts ih =>
    obtain ⟨r, hr, h⟩ := Option.bind_eq_some_iff.mp h
    refine ih ?_ h
    rcases mergeToken_cases hr with hk | hk
    · exact hknown _ _ _ hm hk
    · rw [hk]
      exact hkeep _ _ hm

end Kept

end Wire
