import Bluetape.Base.JsonAscii
import Bluetape.Jwt.CacheTransparency
import Bluetape.Jwt.Lifecycle
import Bluetape.Jwt.Payload

/-!
# Issued tokens

`JWSProvider.issue`, and what `verify` says about its tokens later on, when keys have
been added, rotated, retired and revoked.  Encoding and signing is the work of a
library: the provider has it as a function of the header, the payload and the key.

* `Encodes`: what is known of the library at one token, the compact serialization and that
  it refuses the token or decodes with a key what it has encoded with it;
* `verify_encoded`: the verification of an encoded token, step by step;
* `issued_token_verdict`: over every sequence of repository operations the verdict on
  an issued token depends on its size, its claims and the time only, until its key is
  revoked.
-/

namespace Bluetape
namespace Jwt

open Base

variable {K : Type}

/-! ## Headers of a profile -/

section Headers

/-- `_validate_name` -/
def validateName (value : Text) : Except JWTError Text := do
  raiseIf (isTrimmed value = false) JWTError.configurationError
  raiseIf (encodeUtf8 value = none) JWTError.configurationError
  return value

/-- One round of `_normalize_headers`. -/
def normalizeHeader (entry : Text × Text) : Except JWTError (Text × Text) := do
  let name ← validateName entry.1
  raiseIf (name ∈ reservedHeaders) JWTError.configurationError
  let expected ← validateName entry.2
  return (name, expected)

/-- `_normalize_headers` of a mapping that has been copied -/
def normalizeHeaders (copied : OrderedDict Text Text) : Except JWTError (List (Text × Text)) :=
  copied.items.mapM normalizeHeader

theorem validateName_eq_ok
    {value value' : Text}
    (h : validateName value = .ok value') :
    value' = value ∧ isTrimmed value' = true := by
  simp only [validateName, except_bind_eq_ok, raiseIf_eq_ok] at h
  obtain ⟨-, htrimmed, -, -, h⟩ := h
  obtain rfl := Except.ok.inj h
  exact ⟨rfl, by simpa using htrimmed⟩

/-- A header that a verified token may have. -/
def IsHeader (entry : Text × Text) : Prop :=
  isTrimmed entry.1 = true ∧ entry.1 ∉ reservedHeaders ∧ isTrimmed entry.2 = true

theorem normalizeHeader_eq_ok
    {entry normalized : Text × Text}
    (h : normalizeHeader entry = .ok normalized) :
    normalized = entry ∧ IsHeader entry := by
  simp only [normalizeHeader, except_bind_eq_ok, raiseIf_eq_ok] at h
  obtain ⟨name, hname, -, hreserved, expected, hexpected, h⟩ := h
  obtain ⟨rfl, hname⟩ := validateName_eq_ok hname
  obtain ⟨rfl, hexpected⟩ := validateName_eq_ok hexpected
  exact ⟨(Except.ok.inj h).symm, hname, hreserved, hexpected⟩

/-- The headers of a profile are the given ones. -/
theorem normalizeHeaders_eq_ok
    {copied : OrderedDict Text Text} {headers : List (Text × Text)}
    (h : normalizeHeaders copied = .ok headers) :
    headers = copied.items ∧ ∀ entry ∈ headers, IsHeader entry := by
  have hentries := except_mapM_eq_ok.mp h
  clear h
  generalize copied.items = items at hentries
  induction hentries with
  | nil =>
      exact ⟨rfl, by simp⟩
  | cons hentry _ ih =>
      obtain ⟨rfl, hheader⟩ := normalizeHeader_eq_ok hentry
      obtain ⟨rfl, hrest⟩ := ih
      exact ⟨rfl, List.forall_mem_cons.mpr ⟨hheader, hrest⟩⟩

/-- A name has its value, where every name occurs once. -/
theorem lookup_of_nodup
    {entries : List (Text × Text)} {entry : Text × Text}
    (hnodup : (entries.map Prod.fst).Nodup)
    (hentry : entry ∈ entries) :
    entries.lookup entry.1 = some entry.2 := by
  obtain ⟨before, after, rfl⟩ := List.append_of_mem hentry
  rw [List.lookup_eq_some_iff]
  refine ⟨before, after, rfl, fun other hother => ?_⟩
  rw [List.map_append, List.map_cons, List.nodup_middle, List.nodup_cons] at hnodup
  rw [bne_iff_ne]
  rintro hname
  exact hnodup.1 (List.mem_append_left _ (hname ▸ List.mem_map_of_mem hother))

/-- The header that `issue` encodes. -/
def JWSProvider.issuedHeader (provider : JWSProvider K) (kid : Text) : List (Text × Text) :=
  [(text "alg", provider.algorithm.value), (text "kid", kid),
    (text "typ", provider.profile.tokenType)] ++ provider.profile.protectedHeaders

/-- The strings of a header as the reader of its JSON gives them. -/
def headerValue (header : List (Text × Text)) : List (Text × HeaderValue) :=
  header.map fun entry => (entry.1, .str entry.2)

/-- The entries with strings are those of a header. -/
theorem str?_eq_some_iff
    (entry : Text × HeaderValue) (value : Text × Text) :
    entry.2.str?.map (fun t => (entry.1, t)) = some value ↔ entry = (value.1, .str value.2) := by
  obtain ⟨name, t⟩ := entry
  obtain ⟨name', t'⟩ := value
  cases t with
  | str t =>
      simp [HeaderValue.str?]
  | dict entries =>
      simp [HeaderValue.str?]
  | other =>
      simp [HeaderValue.str?]

variable {provider : JWSProvider K} {copied : OrderedDict Text Text}

/-- The names of an issued header are distinct. -/
theorem nodup_issuedHeader
    (hprofile : normalizeHeaders copied = .ok provider.profile.protectedHeaders)
    (kid : Text) :
    ((provider.issuedHeader kid).map Prod.fst).Nodup := by
  obtain ⟨hitems, hheaders⟩ := normalizeHeaders_eq_ok hprofile
  have hnames : ∀ name ∈ [text "alg", text "kid", text "typ"], name ∈ reservedHeaders := by
    decide
  have hdistinct : [text "alg", text "kid", text "typ"].Nodup := by
    decide
  rw [JWSProvider.issuedHeader, List.map_append, List.nodup_append]
  refine ⟨hdistinct, hitems ▸ copied.nodup, ?_⟩
  rintro name hname other hother rfl
  obtain ⟨entry, hentry, rfl⟩ := List.mem_map.mp hother
  exact (hheaders entry hentry).2.1 (hnames _ hname)

/-- An issued header names the key. -/
theorem lookup_kid_issued
    (hprofile : normalizeHeaders copied = .ok provider.profile.protectedHeaders)
    (kid : Text) :
    (provider.issuedHeader kid).lookup (text "kid") = some kid := by
  have hmem : (text "kid", kid) ∈ provider.issuedHeader kid := by
    simp [JWSProvider.issuedHeader]
  exact lookup_of_nodup (nodup_issuedHeader hprofile kid) hmem

/-- The verifier accepts an issued header as it was issued. -/
theorem acceptHeader_issued
    (hprofile : normalizeHeaders copied = .ok provider.profile.protectedHeaders)
    (kid : Text) :
    provider.acceptHeader (headerValue (provider.issuedHeader kid)) =
      some (provider.issuedHeader kid) := by
  have hnodup := nodup_issuedHeader hprofile kid
  have hstrings : (headerValue (provider.issuedHeader kid)).mapM
      (fun entry => entry.2.str?.map fun value => (entry.1, value)) =
      some (provider.issuedHeader kid) :=
    (mapM_eq_some_iff str?_eq_some_iff).mpr rfl
  have hallowed : (∀ name ∈ (provider.issuedHeader kid).map Prod.fst,
        name ∈ text "kid" :: provider.expectedHeader.map Prod.fst) ∧
      ∀ name ∈ text "kid" :: provider.expectedHeader.map Prod.fst,
        name ∈ (provider.issuedHeader kid).map Prod.fst := by
    simp only [JWSProvider.issuedHeader, JWSProvider.expectedHeader, List.map_append,
      List.map_cons, List.map_nil, List.mem_append, List.mem_cons, List.not_mem_nil, or_false]
    constructor
    · intro name hname
      tauto
    · intro name hname
      tauto
  have hexpected : ∀ entry ∈ provider.expectedHeader,
      (provider.issuedHeader kid).lookup entry.1 = some entry.2 := by
    intro entry hentry
    refine lookup_of_nodup hnodup ?_
    simp only [JWSProvider.expectedHeader, JWSProvider.issuedHeader, List.mem_append,
      List.mem_cons, List.not_mem_nil, or_false] at hentry ⊢
    tauto
  rw [JWSProvider.acceptHeader, hstrings]
  simp only [Option.bind_eq_bind, Option.bind_some, guard, if_pos hallowed, if_pos hexpected]
  rfl

end Headers

/-! ## Issuing -/

section Issue

/-- `jwt.encode` of the library, none for its exceptions -/
abbrev Encoder (K : Type) :=
  List (Text × Text) → RawValue → K → Option Text

/-- Why `issue` raises. -/
inductive IssueError
  | keyUnavailableError
  | tokenError
deriving DecidableEq, Repr

/-- `KeySnapshot.active` -/
def KeySnapshot.active (snapshot : KeySnapshot K) : Option (KeyEntry K) :=
  (snapshot.entries.items.map Prod.snd).find? fun entry => entry.status = .active

/-- `JWSProvider.issue` with the snapshot that it has read -/
def JWSProvider.issue (provider : JWSProvider K) (encode : Encoder K) (claims : TokenClaims)
    (snapshot : KeySnapshot K) : Except IssueError Text := do
  let entry ← orRaise .keyUnavailableError snapshot.active
  let key ← orRaise .keyUnavailableError entry.key
  raiseIf (key.algorithm ≠ provider.algorithm) IssueError.keyUnavailableError
  raiseIf (key.canSign = false) IssueError.keyUnavailableError
  orRaise .tokenError
    (encode (provider.issuedHeader key.kid) (claimsToPayload claims) key.providerKey)

/--
What is known of the library at a token and the key under which it was encoded.  The token is
compact: three segments in base64url, the first one of the header's JSON text in UTF-8.  With
the key it is decoded to its header and its claims, unless the library refuses it.
-/
structure JWSProvider.Reads (provider : JWSProvider K) (claims : TokenClaims) (key : JWTKey K)
    (token : Text) : Prop where
  compact : ∃ encodedHeader encodedPayload signature raw document,
    token = [Json.mark '.'].intercalate [encodedHeader, encodedPayload, signature] ∧
    (∀ segment ∈ [encodedHeader, encodedPayload, signature],
      segment ≠ [] ∧ ∀ p ∈ segment, (sextet p).isSome = true) ∧
    b64decode encodedHeader = some raw ∧ decodeUtf8 raw = some document ∧
    Json.loads strictHooks maxProtectedHeaderBytes document =
      .ok (.dict (headerValue (provider.issuedHeader key.kid)))
  decodes : provider.decode token key.providerKey = .joseError ∨
    provider.decode token key.providerKey =
      .decoded (.dict (headerValue (provider.issuedHeader key.kid))) (claimsToPayload claims)

/-- What is known of the library at a token, if it has encoded the claims to it. -/
def Encodes (provider : JWSProvider K) (encode : Encoder K) (claims : TokenClaims)
    (token : Text) : Prop :=
  ∀ key : JWTKey K,
    encode (provider.issuedHeader key.kid) (claimsToPayload claims) key.providerKey = some token →
    provider.Reads claims key token

/-- The library refuses the token under the key. -/
def JWSProvider.refuses (provider : JWSProvider K) (key : JWTKey K) (token : Text) : Bool :=
  match provider.decode token key.providerKey with
  | .joseError => true
  | _ => false

/-- The length of the header's JSON text in a token. -/
def headerBytes (token : Text) : Nat :=
  ((b64decode (token.takeWhile fun p => p ≠ Json.mark '.')).getD []).length

/-- What a provider says to claims once they are signed, at a time. -/
def JWSProvider.verdict (provider : JWSProvider K) (claims : TokenClaims) (kid : Text)
    (now : Instant) : Except JWTError VerifiedToken := do
  let parsed ← claimsFromPayload (claimsToPayload claims)
  validateClaims parsed.toClaimFields provider.profile provider.profile.tokenType
    provider.profile.protectedHeaders now
  toVerifiedToken parsed kid provider.algorithm provider.profile.tokenType
    provider.profile.protectedHeaders

variable {provider : JWSProvider K} {encode : Encoder K} {claims : TokenClaims}
  {snapshot : KeySnapshot K} {token : Text}

/-- A token is issued with the key of an active entry. -/
theorem issue_eq_ok
    (h : provider.issue encode claims snapshot = .ok token) :
    ∃ entry, ∃ key : JWTKey K,
      snapshot.entries.lookup key.kid = some entry ∧ entry.status = .active ∧
      entry.key = some key ∧ key.algorithm = provider.algorithm ∧
      encode (provider.issuedHeader key.kid) (claimsToPayload claims) key.providerKey =
        some token := by
  simp only [JWSProvider.issue, except_bind_eq_ok, orRaise_eq_ok, raiseIf_eq_ok] at h
  obtain ⟨entry, hactive, key, hkey, -, halgorithm, -, -, hencode⟩ := h
  obtain ⟨item, hitem, rfl⟩ := List.mem_map.mp (List.mem_of_find?_eq_some hactive)
  have hkid : key.kid = item.1 := (snapshot.named item hitem).2 key hkey
  have hstatus : item.2.status = .active := by
    simpa using List.find?_some hactive
  exact ⟨item.2, key, hkid ▸ OrderedDict.lookup_eq_some.mpr hitem, hstatus, hkey,
    not_not.mp halgorithm, hencode⟩

end Issue

/-! ## Verifying what was issued -/

section Verify

/-- A character of a segment is an ASCII character other than the dot. -/
theorem ord_of_sextet
    {p : CodePoint}
    (h : (sextet p).isSome = true) :
    p.ord < 128 ∧ p ≠ Json.mark '.' := by
  constructor
  · unfold sextet at h
    split_ifs at h with h1 h2 h3 h4 h5
    · omega
    · omega
    · omega
    · rw [h4]
      decide
    · rw [h5]
      decide
    · cases h
  · rintro rfl
    revert h
    decide

/-- The segments of an encoded token. -/
structure Segments (token : Text) (header payload signature : Text) : Prop where
  token_eq : token = [Json.mark '.'].intercalate [header, payload, signature]
  valid : ∀ segment ∈ [header, payload, signature],
    segment ≠ [] ∧ ∀ p ∈ segment, (sextet p).isSome = true

namespace Segments

variable {token header payload signature : Text}

theorem ascii
    (h : Segments token header payload signature) :
    ∀ p ∈ token, p.ord < 128 := by
  have hvalid : ∀ segment ∈ [header, payload, signature], ∀ p ∈ segment, p.ord < 128 :=
    fun segment hsegment p hp => (ord_of_sextet ((h.valid segment hsegment).2 p hp)).1
  have hdot : (Json.mark '.').ord < 128 := by
    decide
  intro p hp
  rw [h.token_eq] at hp
  simp only [List.intercalate, List.intersperse, List.flatten_cons, List.flatten_nil,
    List.mem_append, List.mem_singleton, List.not_mem_nil, or_false] at hp
  simp only [List.forall_mem_cons] at hvalid
  rcases hp with hp | rfl | hp | rfl | hp
  · exact hvalid.1 p hp
  · exact hdot
  · exact hvalid.2.1 p hp
  · exact hdot
  · exact hvalid.2.2.1 p hp

theorem splitOn
    (h : Segments token header payload signature) :
    token.splitOn (Json.mark '.') = [header, payload, signature] := by
  rw [h.token_eq]
  refine List.splitOn_intercalate _ (fun segment hsegment hdot => ?_) (by simp)
  exact (ord_of_sextet ((h.valid segment hsegment).2 _ hdot)).2 rfl

/-- The shape of an encoded token is accepted, unless the token is too long. -/
theorem validateTokenShape
    (h : Segments token header payload signature) :
    validateTokenShape token =
      if maxTokenBytes < token.length then .error .malformedTokenError
      else .ok (header, payload, signature) := by
  have hbytes := encodeUtf8_of_encodeAscii (encodeAscii_of_ascii h.ascii)
  have hshape : ([header, payload, signature].all fun segment =>
      !segment.isEmpty && segment.all fun p => (sextet p).isSome) = true := by
    rw [List.all_eq_true]
    intro segment hsegment
    obtain ⟨hne, hsextets⟩ := h.valid segment hsegment
    rw [Bool.and_eq_true, List.all_eq_true]
    exact ⟨by simpa using hne, hsextets⟩
  by_cases hlong : maxTokenBytes < token.length
  · rw [if_pos hlong, Jwt.validateTokenShape, raiseIf, if_pos hlong]
    rfl
  · rw [if_neg hlong]
    refine except_bind_eq_ok.mpr ⟨(), raiseIf_eq_ok.mpr hlong, ?_⟩
    refine except_bind_eq_ok.mpr ⟨_, orRaise_eq_ok.mpr hbytes, ?_⟩
    refine except_bind_eq_ok.mpr ⟨(), raiseIf_eq_ok.mpr (by rwa [List.length_map]), ?_⟩
    rw [h.splitOn]
    exact except_bind_eq_ok.mpr ⟨(), raiseIf_eq_ok.mpr (by simp [hshape]), rfl⟩

theorem headerBytes_eq
    (h : Segments token header payload signature) {raw : Bytes}
    (hraw : b64decode header = some raw) :
    headerBytes token = raw.length := by
  have hheader : token.takeWhile (fun p => p ≠ Json.mark '.') = header := by
    have hkept : ∀ p ∈ header, decide (p ≠ Json.mark '.') = true := fun p hp =>
      decide_eq_true (ord_of_sextet ((h.valid header (by simp)).2 p hp)).2
    rw [h.token_eq]
    simp only [List.intercalate, List.intersperse, List.flatten_cons]
    rw [List.takeWhile_append_of_pos hkept]
    simp
  rw [headerBytes, hheader, hraw]
  rfl

end Segments

variable {provider : JWSProvider K} {copied : OrderedDict Text Text} {kid : Text}

/-- The header of an issued token is read as it was issued, unless it is too long. -/
theorem readHeader_issued
    {encoded document : Text} {raw : Bytes}
    (hprofile : normalizeHeaders copied = .ok provider.profile.protectedHeaders)
    (hkid : isKid kid = true)
    (hraw : b64decode encoded = some raw)
    (hdocument : decodeUtf8 raw = some document)
    (hloads : Json.loads strictHooks maxProtectedHeaderBytes document =
      .ok (.dict (headerValue (provider.issuedHeader kid)))) :
    provider.readHeader encoded =
      if maxProtectedHeaderBytes < raw.length then .error .malformedTokenError
      else .ok (provider.issuedHeader kid) := by
  have hlookup := lookup_kid_issued hprofile kid
  rw [JWSProvider.readHeader, hraw]
  by_cases hlong : maxProtectedHeaderBytes < raw.length
  · rw [if_pos hlong]
    exact except_bind_eq_error.mpr (.inr ⟨raw, rfl,
      except_bind_eq_error.mpr (.inl (raiseIf_eq_error.mpr ⟨hlong, rfl⟩))⟩)
  · rw [if_neg hlong]
    refine except_bind_eq_ok.mpr ⟨raw, rfl, ?_⟩
    refine except_bind_eq_ok.mpr ⟨(), raiseIf_eq_ok.mpr hlong, ?_⟩
    refine except_bind_eq_ok.mpr ⟨document, orRaise_eq_ok.mpr hdocument, ?_⟩
    refine except_bind_eq_ok.mpr ⟨_, mapError_eq_ok.mpr hloads, ?_⟩
    refine except_bind_eq_ok.mpr ⟨_, orRaise_eq_ok.mpr (acceptHeader_issued hprofile kid), ?_⟩
    refine except_bind_eq_ok.mpr ⟨kid, orRaise_eq_ok.mpr hlookup, ?_⟩
    exact except_bind_eq_ok.mpr ⟨(), raiseIf_eq_ok.mpr (by simp [hkid]), rfl⟩

/-- The decoded header is the one that was read. -/
theorem differs_headerValue
    {header : List (Text × Text)}
    (hnodup : (header.map Prod.fst).Nodup) :
    differs (.dict (headerValue header)) header = false := by
  have hlookup : ∀ name, (headerValue header).lookup name =
      (header.lookup name).map HeaderValue.str := by
    intro name
    clear hnodup
    induction header with
    | nil =>
        rfl
    | cons entry header ih =>
        rw [headerValue] at ih
        rw [headerValue, List.map_cons, List.lookup_cons, List.lookup_cons, ih]
        cases name == entry.1 <;> rfl
  have hall : (header.all fun entry =>
      (((headerValue header).lookup entry.1).bind HeaderValue.str?) = some entry.2) = true := by
    rw [List.all_eq_true]
    intro entry hentry
    rw [hlookup, lookup_of_nodup hnodup hentry]
    simp [HeaderValue.str?]
  have hlength : (headerValue header).length = header.length := List.length_map ..
  simp [differs, hall, hlength]

/-- The signed claims of an issued token, under a key that may verify. -/
theorem decodeToken_issued
    {claims : TokenClaims} {key : JWTKey K} {snapshot : KeySnapshot K} {token encoded : Text}
    (hprofile : normalizeHeaders copied = .ok provider.profile.protectedHeaders)
    (hreads : provider.Reads claims key token)
    (halgorithm : key.algorithm = provider.algorithm)
    (hheader : provider.readHeader encoded = .ok (provider.issuedHeader key.kid))
    (hkey : snapshot.verificationKey key.kid = .ok key) :
    provider.decodeToken token encoded snapshot =
      if provider.refuses key token then .error .unsupportedTokenError
      else (claimsFromPayload (claimsToPayload claims)).map fun parsed =>
        ⟨parsed, key.kid, provider.profile.tokenType, provider.profile.protectedHeaders⟩ := by
  have hnodup := nodup_issuedHeader hprofile key.kid
  have hlookup : ∀ entry ∈ provider.issuedHeader key.kid,
      (provider.issuedHeader key.kid).lookup entry.1 = some entry.2 :=
    fun entry => lookup_of_nodup hnodup
  have hkid := lookup_kid_issued hprofile key.kid
  have htype := hlookup (text "typ", provider.profile.tokenType)
    (by simp [JWSProvider.issuedHeader])
  have hheaders : (provider.profile.protectedHeaders.map fun entry =>
      (entry.1, ((provider.issuedHeader key.kid).lookup entry.1).getD [])) =
      provider.profile.protectedHeaders := by
    refine (List.map_congr_left fun entry hentry => ?_).trans (List.map_id _)
    rw [hlookup entry (List.mem_append_right _ hentry)]
    rfl
  rcases hreads.decodes with hrefused | hdecoded
  · simp [JWSProvider.decodeToken, JWSProvider.refuses, hheader, hkid, hkey, hrefused,
      Decoding.result, raiseIf, halgorithm, bind, Except.bind]
  · simp only [JWSProvider.decodeToken, JWSProvider.refuses, hheader, hkid, htype, hheaders, hkey,
      hdecoded, Decoding.result, raiseIf, halgorithm, differs_headerValue hnodup, bind,
      Except.bind, Option.getD_some, ne_eq, not_true_eq_false, if_false, Bool.false_eq_true]
    cases claimsFromPayload (claimsToPayload claims) with
    | error e =>
        rfl
    | ok parsed =>
        rfl

end Verify

/-! ## Over the life of the keys -/

section Life

open InMemoryKeyRepository

variable {provider : JWSProvider K} {encode : Encoder K} {copied : OrderedDict Text Text}
  {claims : TokenClaims} {token : Text}

/-- The snapshot has a tombstone for the identifier. -/
def KeySnapshot.isRevoked (snapshot : KeySnapshot K) (kid : Text) : Bool :=
  (snapshot.entries.lookup kid).any fun entry => entry.status = .revoked

/-- What an entry gives for verification. -/
theorem verificationKey_of_entry
    {snapshot : KeySnapshot K} {kid : Text} {entry : KeyEntry K}
    (hentry : snapshot.entries.lookup kid = some entry) :
    snapshot.verificationKey kid =
      if entry.status = .revoked then .error .keyUnavailableError
      else orRaise .keyUnavailableError entry.key := by
  rw [KeySnapshot.verificationKey, hentry]
  by_cases hrevoked : entry.status = .revoked
  · simp [orRaise, raiseIf, hrevoked, bind, Except.bind]
  · simp [orRaise, raiseIf, hrevoked, bind, Except.bind]

/-- Operations move the repository forward. -/
theorem later_of_run
    {earlier later : InMemoryKeyRepository K}
    {calls : List (Mutation K × Except JWTError (KeySnapshot K))}
    (hsound : earlier.Sound)
    (hrun : Run Operates earlier calls later) :
    later.Sound ∧ Later earlier later :=
  hrun.invariant (I := fun s => s.Sound ∧ Later earlier s)
    (fun _ _ _ hs hstep => ⟨(hstep.step hs.1).2.2, hs.2.trans (hstep.step hs.1).2.1⟩)
    ⟨hsound, .refl earlier⟩

/-- The active key that a token was issued under, and its entry later on. -/
theorem exists_issuing_key
    {active : Option (Option (JWTKey K))}
    {verificationKeys : Option (List (Option (JWTKey K)))}
    {repository issuing later : InMemoryKeyRepository K}
    {calls calls' : List (Mutation K × Except JWTError (KeySnapshot K))}
    (hcreate : create active verificationKeys = .ok repository)
    (hissuing : Run Operates repository calls issuing)
    (hissue : provider.issue encode claims issuing.snapshot = .ok token)
    (hlater : Run Operates issuing calls' later) :
    ∃ key : JWTKey K, ∃ entry entry', issuing.snapshot.entries.lookup key.kid = some entry ∧
      entry.status = .active ∧ entry.key = some key ∧ key.algorithm = provider.algorithm ∧
      encode (provider.issuedHeader key.kid) (claimsToPayload claims) key.providerKey =
        some token ∧
      later.snapshot.entries.lookup key.kid = some entry' ∧
      (entry'.status ≠ .revoked → entry'.key = some key) := by
  obtain ⟨entry, key, hentry, hstatus, hkey, halgorithm, hencode⟩ := issue_eq_ok hissue
  have hsound := (later_of_run (sound_of_create hcreate).1 hissuing).1
  obtain ⟨entry', hentry', hbecomes⟩ :=
    (later_of_run hsound hlater).2.kept key.kid entry hentry
  exact ⟨key, entry, entry', hentry, hstatus, hkey, halgorithm, hencode, hentry',
    fun hkept => (hbecomes.key hkept).trans hkey⟩

/-- **The verification of an encoded token**, by the entry of its key. -/
theorem verify_encoded
    {key : JWTKey K} {snapshot : KeySnapshot K} {entry : KeyEntry K}
    (hprofile : normalizeHeaders copied = .ok provider.profile.protectedHeaders)
    (hreads : provider.Reads claims key token)
    (halgorithm : key.algorithm = provider.algorithm)
    (hentry : snapshot.entries.lookup key.kid = some entry)
    (hkey : entry.status ≠ .revoked → entry.key = some key)
    (now : Instant) :
    provider.verify token snapshot (some now) =
      if maxTokenBytes < token.length ∨ maxProtectedHeaderBytes < headerBytes token then
        .error .malformedTokenError
      else if snapshot.isRevoked key.kid then .error .keyUnavailableError
      else if provider.refuses key token then .error .unsupportedTokenError
      else provider.verdict claims key.kid now := by
  obtain ⟨encodedHeader, encodedPayload, signature, raw, document, htoken, hvalid, hraw,
    hdocument, hloads⟩ := hreads.compact
  have hsegments : Segments token encodedHeader encodedPayload signature := ⟨htoken, hvalid⟩
  have hread := readHeader_issued hprofile key.kid_valid hraw hdocument hloads
  rw [hsegments.headerBytes_eq hraw, JWSProvider.verify, hsegments.validateTokenShape]
  by_cases hlong : maxTokenBytes < token.length
  · rw [if_pos hlong, if_pos (Or.inl hlong)]
    rfl
  rw [if_neg hlong]
  by_cases hheader : maxProtectedHeaderBytes < raw.length
  · rw [if_pos hheader] at hread
    rw [if_pos (Or.inr hheader)]
    simp [orRaise, JWSProvider.verifyUncached, JWSProvider.decodeToken, hread, bind, Except.bind]
  rw [if_neg hheader] at hread
  rw [if_neg (not_or.mpr ⟨hlong, hheader⟩)]
  have hlookup := lookup_kid_issued hprofile key.kid
  have hverification := verificationKey_of_entry hentry
  by_cases hrevoked : entry.status = .revoked
  · rw [if_pos hrevoked] at hverification
    rw [if_pos (by simp [KeySnapshot.isRevoked, hentry, hrevoked])]
    simp [orRaise, JWSProvider.verifyUncached, JWSProvider.decodeToken, hread, hlookup,
      hverification, bind, Except.bind]
  · rw [if_neg hrevoked, hkey hrevoked] at hverification
    rw [if_neg (by simp [KeySnapshot.isRevoked, hentry, hrevoked])]
    have hdecode := decodeToken_issued hprofile hreads halgorithm hread hverification
    simp only [orRaise, JWSProvider.verifyUncached, JWSProvider.verdict, hdecode, bind,
      Except.bind]
    cases provider.refuses key token with
    | true =>
        rfl
    | false =>
        cases claimsFromPayload (claimsToPayload claims) with
        | error e =>
            rfl
        | ok parsed =>
            rfl

/--
**The verdict on an issued token.**  Keys may be added, rotated, retired and revoked
before and after a token is issued: at every later time the verification of the token
depends on its size, whether the library refuses it, its claims and the time only, and from the
revocation of its key on it fails.
-/
theorem issued_token_verdict
    (provider : JWSProvider K) (encode : Encoder K)
    {active : Option (Option (JWTKey K))}
    {verificationKeys : Option (List (Option (JWTKey K)))}
    {repository issuing later : InMemoryKeyRepository K}
    {calls calls' : List (Mutation K × Except JWTError (KeySnapshot K))}
    (hprofile : normalizeHeaders copied = .ok provider.profile.protectedHeaders)
    (hlibrary : Encodes provider encode claims token)
    (hcreate : create active verificationKeys = .ok repository)
    (hissuing : Run Operates repository calls issuing)
    (hissue : provider.issue encode claims issuing.snapshot = .ok token)
    (hlater : Run Operates issuing calls' later) :
    ∃ key : JWTKey K, ∃ entry, issuing.snapshot.entries.lookup key.kid = some entry ∧
      entry.status = .active ∧ entry.key = some key ∧
      ∀ now, provider.verify token later.snapshot (some now) =
        if maxTokenBytes < token.length ∨ maxProtectedHeaderBytes < headerBytes token then
          .error .malformedTokenError
        else if later.snapshot.isRevoked key.kid then .error .keyUnavailableError
        else if provider.refuses key token then .error .unsupportedTokenError
        else provider.verdict claims key.kid now := by
  obtain ⟨key, entry, entry', hentry, hstatus, hissued, halgorithm, hencode, hentry', hkey⟩ :=
    exists_issuing_key hcreate hissuing hissue hlater
  exact ⟨key, entry, hentry, hstatus, hissued,
    verify_encoded hprofile (hlibrary key hencode) halgorithm hentry' hkey⟩

end Life

/-! ### A token of a rotated key -/

section Rotated

open InMemoryKeyRepository

def issuerFields : ClaimFields JSONValue :=
  ⟨some (text "i"), none, [text "a"], none, none, none, none, []⟩

theorem issuerFields_accepted :
    issuerFields.accepted = true := by
  decide

/-- The claims of an issuer to an audience. -/
def issuerClaims : TokenClaims :=
  ⟨issuerFields, issuerFields_accepted, frozen_nil⟩

/-- The segments of a token that is signed with a key of 32 letters `k`. -/
def issuerSegments : List Text :=
  [text "eyJhbGciOiJIUzI1NiIsImtpZCI6ImsiLCJ0eXAiOiJKV1QifQ",
    text "eyJpc3MiOiJpIiwiYXVkIjpbImEiXX0",
    text "9FVafvRF93hMfl_6mt5Ft6nzxAyfJjlpbrZ0pJ-nzQw"]

def issuerToken : Text :=
  [Json.mark '.'].intercalate issuerSegments

theorem issuerToken_fits :
    issuerToken.length ≤ maxTokenBytes ∧ headerBytes issuerToken ≤ maxProtectedHeaderBytes := by
  decide +kernel

/-- The header of the token. -/
def issuerHeader : List (Text × Text) :=
  [(text "alg", text "HS256"), (text "kid", text "k"), (text "typ", text "JWT")]

/-- A provider whose library decodes one token. -/
def issuerProvider : JWSProvider Unit where
  algorithm := .HS256
  profile := demoProvider.profile
  decode token _ :=
    if token = issuerToken then
      .decoded (.dict (headerValue issuerHeader)) (claimsToPayload issuerClaims)
    else .badSignature
  sha256 encoded := encoded

/-- A library that encodes one token. -/
def issuerEncode : Encoder Unit
  | header, .dict [(iss, .str issuer), (aud, .list [.str audience])], _ =>
      if header = issuerHeader ∧ iss = text "iss" ∧ issuer = text "i" ∧ aud = text "aud" ∧
          audience = text "a" then
        some issuerToken
      else none
  | _, _, _ => none

/-- The strings of an object, when it has no other values. -/
def HeaderValue.strings : HeaderValue → Option (List (Text × Text))
  | dict entries => entries.mapM fun entry => entry.2.str?.map fun value => (entry.1, value)
  | _ => none

theorem eq_of_strings
    {value : HeaderValue} {header : List (Text × Text)}
    (h : value.strings = some header) :
    value = .dict (headerValue header) := by
  cases value with
  | str t => cases h
  | dict entries => exact congrArg HeaderValue.dict ((mapM_eq_some_iff str?_eq_some_iff).mp h)
  | other => cases h

theorem ok_of_toOption
    {ε α : Type} {x : Except ε α} {a : α}
    (h : x.toOption = some a) :
    x = .ok a := by
  cases x with
  | error e => cases h
  | ok b => exact congrArg Except.ok (Option.some.inj h)

theorem issuerHeader_read :
    ((b64decode (issuerSegments.headD [])).bind decodeUtf8).map (fun document =>
      (Json.loads strictHooks maxProtectedHeaderBytes document).toOption.bind
        HeaderValue.strings) = some (some issuerHeader) := by
  decide +kernel

theorem issuerSegments_valid :
    ∀ segment ∈ issuerSegments,
      segment ≠ [] ∧ ∀ p ∈ segment, (sextet p).isSome = true := by
  decide

theorem issuerEncode_eq_some
    {header : List (Text × Text)} {payload : RawValue} {key : Unit} {token : Text}
    (h : issuerEncode header payload key = some token) :
    header = issuerHeader ∧ payload = claimsToPayload issuerClaims ∧ token = issuerToken := by
  unfold issuerEncode at h
  split at h
  · split_ifs at h with hsame
    obtain ⟨rfl, rfl, rfl, rfl, rfl⟩ := hsame
    exact ⟨rfl, rfl, (Option.some.inj h).symm⟩
  · cases h

theorem encodes_issuer :
    Encodes issuerProvider issuerEncode issuerClaims issuerToken := by
  intro key hencode
  obtain ⟨hheader, -, -⟩ := issuerEncode_eq_some hencode
  constructor
  · obtain ⟨document, hdocument, hstrings⟩ := Option.map_eq_some_iff.mp issuerHeader_read
    obtain ⟨raw, hraw, hdocument⟩ := Option.bind_eq_some_iff.mp hdocument
    obtain ⟨value, hloads, hstrings⟩ := Option.bind_eq_some_iff.mp hstrings
    refine ⟨_, _, _, raw, document, rfl, issuerSegments_valid, hraw, hdocument, ?_⟩
    rw [hheader, ← eq_of_strings hstrings]
    exact ok_of_toOption hloads
  · refine .inr ?_
    rw [hheader]
    simp [issuerProvider]

/-- The library does not refuse the token. -/
theorem issuerToken_decoded
    (key : JWTKey Unit) :
    issuerProvider.refuses key issuerToken = false := by
  simp [JWSProvider.refuses, issuerProvider]

/-- The key `l` takes the place of the key `k`. -/
def issuerRotation : Mutation Unit :=
  .rotate (some (signingKey (text "l") (by decide)))

theorem issuer_rotated :
    (create (some (some (signingKey (text "k") isKid_k))) (some [])).toOption.map
      (fun repository => issuerProvider.issue issuerEncode issuerClaims repository.snapshot) =
      some (.ok issuerToken) := by
  decide +kernel

theorem normalizeHeaders_empty :
    normalizeHeaders .empty = .ok issuerProvider.profile.protectedHeaders := by
  rfl

/-- The token is verified when its key has been rotated out. -/
theorem issued_token_verdict_rotated :
    ∃ repository, ∃ key : JWTKey Unit, ∃ entry,
      issuerProvider.issue issuerEncode issuerClaims repository.snapshot = .ok issuerToken ∧
      repository.snapshot.entries.lookup key.kid = some entry ∧ entry.status = .active ∧
      let rotated := (outcome repository issuerRotation).2.snapshot
      ∀ now, issuerProvider.verify issuerToken rotated (some now) =
        if maxTokenBytes < issuerToken.length ∨
            maxProtectedHeaderBytes < headerBytes issuerToken then
          .error .malformedTokenError
        else if rotated.isRevoked key.kid then .error .keyUnavailableError
        else issuerProvider.verdict issuerClaims key.kid now := by
  obtain ⟨repository, hcreate, hissue⟩ := Option.map_eq_some_iff.mp issuer_rotated
  obtain ⟨key, entry, hentry, hstatus, -, hverdict⟩ :=
    issued_token_verdict issuerProvider issuerEncode normalizeHeaders_empty encodes_issuer
      (ok_of_toOption hcreate) (.nil _) hissue (.single (operates repository issuerRotation))
  refine ⟨repository, key, entry, hissue, hentry, hstatus, fun now => ?_⟩
  rw [hverdict now, issuerToken_decoded, if_neg Bool.false_ne_true]

end Rotated

/-! ## Accepted tokens -/

section Accepted

open InMemoryKeyRepository

variable {provider : JWSProvider K} {encode : Encoder K} {copied : OrderedDict Text Text}
  {claims : TokenClaims} {token : Text}

/-- Claims that a policy accepts make a verified token. -/
theorem toVerifiedToken_of_validateClaims
    {kid given : Text} {now : Instant}
    (hprofile : normalizeHeaders copied = .ok provider.profile.protectedHeaders)
    (htype : validateName given = .ok provider.profile.tokenType)
    (hkid : isKid kid = true)
    (hvalid : validateClaims claims.toClaimFields provider.profile provider.profile.tokenType
      provider.profile.protectedHeaders now = .ok ()) :
    ∃ value, toVerifiedToken claims kid provider.algorithm provider.profile.tokenType
      provider.profile.protectedHeaders = .ok value := by
  simp only [validateClaims, except_bind_eq_ok, raiseIf_eq_ok] at hvalid
  obtain ⟨-, -, -, -, -, hissuer, -, haudience, -⟩ := hvalid
  obtain ⟨issuer, hissuer, -⟩ := not_not.mp hissuer
  obtain ⟨audience, haudience, -⟩ := not_not.mp haudience
  have hne : claims.audience ≠ [] := List.ne_nil_of_mem haudience
  have htrimmed : isTrimmed kid = true := by
    rw [isKid, Bool.and_eq_true] at hkid
    exact hkid.1
  have hclaims := claims.valid
  simp only [ClaimFields.accepted, Bool.and_eq_true] at hclaims
  obtain ⟨⟨⟨⟨hissuer', hsubject⟩, hjwtId⟩, haudience'⟩, hcustom⟩ := hclaims
  rw [Option.mem_def.mp hissuer] at hissuer'
  have hheaders : (provider.profile.protectedHeaders.all fun entry =>
      isTrimmed entry.1 && decide (entry.1 ∉ reservedHeaders) && isTrimmed entry.2) = true := by
    rw [List.all_eq_true]
    intro entry hentry
    obtain ⟨hname, hreserved, hvalue⟩ := (normalizeHeaders_eq_ok hprofile).2 entry hentry
    simp [hname, hreserved, hvalue]
  have hsome : isTrimmed issuer = true := hissuer'
  have hpresent : (!claims.audience.isEmpty) = true := by
    simpa using hne
  obtain ⟨value, hvalue⟩ : ∃ value, VerifiedToken.make
      { kid := kid
        algorithm := provider.algorithm
        tokenType := provider.profile.tokenType
        issuer := issuer
        subject := claims.subject
        audience := claims.audience
        expiresAt := claims.expiresAt
        notBefore := claims.notBefore
        issuedAt := claims.issuedAt
        jwtId := claims.jwtId
        custom := passed claims.custom
        headers := provider.profile.protectedHeaders } = .ok value := by
    refine VerifiedToken.exists_make claims.frozen.freezeDict_passed ?_
    simp only [VerifiedFields.accepted, VerifiedFields.withCustom, Bool.and_eq_true]
    exact ⟨⟨⟨⟨⟨⟨⟨⟨htrimmed, (validateName_eq_ok htype).2⟩, hsome⟩, hsubject⟩, hpresent⟩,
      haudience'⟩, hjwtId⟩, hcustom⟩, hheaders⟩
  exact ⟨value, except_bind_eq_ok.mpr ⟨issuer, orRaise_eq_ok.mpr hissuer,
    except_bind_eq_ok.mpr ⟨(), raiseIf_eq_ok.mpr hne, hvalue⟩⟩⟩

/-- The claims of an issued token, read back. -/
theorem claimsFromPayload_floored
    (hkeeps : ∀ t, t ∈ claims.expiresAt ∨ t ∈ claims.notBefore ∨ t ∈ claims.issuedAt →
      t.KeepsSecond) :
    claimsFromPayload (claimsToPayload claims) = .ok claims.floored := by
  refine claimsFromPayload_eq_ok.mpr ⟨?_, ?_, ?_, rfl⟩
  · exact (onWire_floored _).mpr fun t ht => hkeeps t (.inl ht)
  · exact (onWire_floored _).mpr fun t ht => hkeeps t (.inr (.inl ht))
  · exact (onWire_floored _).mpr fun t ht => hkeeps t (.inr (.inr ht))

/--
**Issued tokens are accepted.**  A token within the limits of its verifier, issued for
claims that keep their seconds, is accepted at a later time exactly as long as its key is
not revoked, the library does not refuse it and the policy accepts the claims, floored to
seconds; and what is verified are these claims under the key that was active when the token was
issued.
-/
theorem issued_token_accepted
    (provider : JWSProvider K) (encode : Encoder K) {given : Text}
    {active : Option (Option (JWTKey K))}
    {verificationKeys : Option (List (Option (JWTKey K)))}
    {repository issuing later : InMemoryKeyRepository K}
    {calls calls' : List (Mutation K × Except JWTError (KeySnapshot K))}
    (hprofile : normalizeHeaders copied = .ok provider.profile.protectedHeaders)
    (htype : validateName given = .ok provider.profile.tokenType)
    (hlibrary : Encodes provider encode claims token)
    (hcreate : create active verificationKeys = .ok repository)
    (hissuing : Run Operates repository calls issuing)
    (hissue : provider.issue encode claims issuing.snapshot = .ok token)
    (hlater : Run Operates issuing calls' later)
    (hkeeps : ∀ t, t ∈ claims.expiresAt ∨ t ∈ claims.notBefore ∨ t ∈ claims.issuedAt →
      t.KeepsSecond)
    (hsize : token.length ≤ maxTokenBytes)
    (hheader : headerBytes token ≤ maxProtectedHeaderBytes) :
    ∃ key : JWTKey K, ∃ entry, issuing.snapshot.entries.lookup key.kid = some entry ∧
      entry.status = .active ∧ entry.key = some key ∧
      ∀ now,
        ((∃ value, provider.verify token later.snapshot (some now) = .ok value) ↔
          later.snapshot.isRevoked key.kid = false ∧ provider.refuses key token = false ∧
          validateClaims claims.floored.toClaimFields provider.profile
            provider.profile.tokenType provider.profile.protectedHeaders now = .ok ()) ∧
        ∀ value, provider.verify token later.snapshot (some now) = .ok value →
          value.claimFields = claims.floored.toClaimFields ∧ value.kid = key.kid := by
  obtain ⟨key, entry, entry', hentry, hstatus, hissued, halgorithm, hencode, hentry', hkey⟩ :=
    exists_issuing_key hcreate hissuing hissue hlater
  refine ⟨key, entry, hentry, hstatus, hissued, fun now => ?_⟩
  have hverify := verify_encoded hprofile (hlibrary key hencode) halgorithm hentry' hkey now
  rw [if_neg (by omega)] at hverify
  have hverdict : ∀ value, provider.verdict claims key.kid now = .ok value ↔
      validateClaims claims.floored.toClaimFields provider.profile provider.profile.tokenType
        provider.profile.protectedHeaders now = .ok () ∧
      toVerifiedToken claims.floored key.kid provider.algorithm provider.profile.tokenType
        provider.profile.protectedHeaders = .ok value := by
    intro value
    simp only [JWSProvider.verdict, claimsFromPayload_floored hkeeps, except_bind_eq_ok]
    constructor
    · rintro ⟨parsed, hparsed, ⟨⟩, hvalid, hvalue⟩
      obtain rfl := Except.ok.inj hparsed
      exact ⟨hvalid, hvalue⟩
    · rintro ⟨hvalid, hvalue⟩
      exact ⟨_, rfl, (), hvalid, hvalue⟩
  have haccepted : ∀ value, provider.verify token later.snapshot (some now) = .ok value ↔
      later.snapshot.isRevoked key.kid = false ∧ provider.refuses key token = false ∧
        provider.verdict claims key.kid now = .ok value := by
    intro value
    rw [hverify]
    cases later.snapshot.isRevoked key.kid <;> cases provider.refuses key token <;> simp
  constructor
  · constructor
    · rintro ⟨value, hvalue⟩
      obtain ⟨hrevoked, hread, hvalue⟩ := (haccepted value).mp hvalue
      exact ⟨hrevoked, hread, ((hverdict value).mp hvalue).1⟩
    · rintro ⟨hrevoked, hread, hvalid⟩
      obtain ⟨value, hvalue⟩ :=
        toVerifiedToken_of_validateClaims hprofile htype key.kid_valid hvalid
      exact ⟨value, (haccepted value).mpr
        ⟨hrevoked, hread, (hverdict value).mpr ⟨hvalid, hvalue⟩⟩⟩
  · intro value hvalue
    have hmade := ((hverdict value).mp ((haccepted value).mp hvalue).2.2).2
    obtain ⟨hfields, hkid, -, -⟩ := toVerifiedToken_eq_ok hmade
    exact ⟨hfields, hkid⟩

/-- The token of the rotated key is accepted when the policy accepts its claims. -/
theorem issued_token_accepted_rotated :
    ∃ repository, ∃ key : JWTKey Unit, ∃ entry,
      issuerProvider.issue issuerEncode issuerClaims repository.snapshot = .ok issuerToken ∧
      repository.snapshot.entries.lookup key.kid = some entry ∧ entry.status = .active ∧
      let rotated := (outcome repository issuerRotation).2.snapshot
      ∀ now,
        (∃ value, issuerProvider.verify issuerToken rotated (some now) = .ok value) ↔
          rotated.isRevoked key.kid = false ∧
          validateClaims issuerClaims.floored.toClaimFields issuerProvider.profile
            issuerProvider.profile.tokenType issuerProvider.profile.protectedHeaders now =
              .ok () := by
  obtain ⟨repository, hcreate, hissue⟩ := Option.map_eq_some_iff.mp issuer_rotated
  obtain ⟨key, entry, hentry, hstatus, -, haccepted⟩ :=
    issued_token_accepted issuerProvider issuerEncode normalizeHeaders_empty
      (show validateName (text "JWT") = .ok issuerProvider.profile.tokenType from rfl)
      encodes_issuer (ok_of_toOption hcreate) (.nil _) hissue
      (.single (operates repository issuerRotation)) (by simp [issuerClaims, issuerFields])
      issuerToken_fits.1 issuerToken_fits.2
  refine ⟨repository, key, entry, hissue, hentry, hstatus, fun now => ?_⟩
  simpa only [issuerToken_decoded, true_and] using (haccepted now).1

end Accepted

end Jwt
end Bluetape
