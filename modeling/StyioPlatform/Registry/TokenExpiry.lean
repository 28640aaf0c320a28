import StyioPlatform.Lib.Calendar
import StyioPlatform.Registry.Tokens

/-! The expiry of publish tokens. A creation stores the text of `expires_at` as it comes, and an
authorization compares it with the text of the clock: the tokens with that text expire in time
just when the text denotes an instant and comes before the text of the next second. -/
namespace StyioPlatform.Registry

open Prog

/-- The event creates no token of the given digest. -/
def OtherToken (env : Environment) (hash : String) (w : World) : Event → Prop
  | .request _ _ (.createPublishToken random _ _) =>
    tokenHash env (clearToken (nextRegistryTokenId w) random) ≠ hash
  | _ => True

/-- The registry does not have the token yet. -/
def NewToken (env : Environment) (clear : String) (w : World) : Prop :=
  ∀ t ∈ w.grants.tokenRecords, t.tokenHash ≠ tokenHash env clear

/-- At no second after the given one, before the year 10000, a request is accepted with the token
only. -/
def Expired (env : Environment) (w : World) (clear : String) (second : ℤ) : Prop :=
  ∀ (t : ℕ) (host : Host) request scope package, second < t → t < year10000 →
    host.authorizedAt = utcTimestamp t → request.identity = none →
    registryTokenFromHeaders request.headers = some clear →
    (registryWriteAuthorized env host none request scope package w).1 = .ok false

/-- What is promised of the tokens with the text as `expires_at`, where `instant` reads the second
that a text denotes: a text that denotes none is rejected, and after the second no request is
accepted with such a token, whatever else happens. -/
def ExpiresInTime (env : Environment) (cfg : PlatformConfig) (instant : String → Option ℤ)
    (text : String) : Prop :=
  ∀ w host fault random request body response w', w.postgres = none →
    body.textOr "expires_at" "" = some text →
    NewToken env (clearToken (nextRegistryTokenId w) random) w →
    handleCreatePublishToken env host fault random request body w = (.ok response, w') →
    response.status = 200 → text ≠ "" →
    ∃ second, instant text = some second ∧
      ∀ clear, answeredToken (.ok response) = some clear → ∀ events,
        Along (Event.apply env cfg) (OtherToken env (tokenHash env clear)) events w' →
        Expired env (events.foldl (Event.apply env cfg) w') clear second

variable {env : Environment} {cfg : PlatformConfig} {host : Host} {fault : Option Site}
  {w w' : World} {request : HttpRequest} {instant : String → Option ℤ} {text clear : String}

/-- The text denotes a second and comes before the text of the first second after it. -/
def SortsInTime (instant : String → Option ℤ) (text : String) : Prop :=
  ∃ second, instant text = some second ∧
    ((second + 1).toNat < year10000 → text < utcTimestamp (second + 1).toNat)

/-- The clock's own texts are in order. -/
theorem sortsInTime_utcTimestamp {t : ℕ} (h : instant (utcTimestamp t) = some t) :
    SortsInTime instant (utcTimestamp t) := by
  refine ⟨t, h, fun hyear => ?_⟩
  have hnext : ((t : ℤ) + 1).toNat = t + 1 := by omega
  rw [hnext] at hyear ⊢
  exact utcTimestamp_lt (Nat.lt_add_one t) hyear

/-- The tokens of the digest have the text. -/
def WithText (hash text : String) (t : RegistryPublishTokenRecord) : Prop :=
  t.tokenHash = hash → t.expiresAt = text

theorem withText_apply {event : Event} {hash : String} (hw : AllTokens (WithText hash text) w.grants)
    (hother : OtherToken env hash w event) :
    AllTokens (WithText hash text) (event.apply env cfg w).grants := by
  by_cases hcreate : ∃ host fault random request body,
      event = .request host fault (.createPublishToken random request body)
  · obtain ⟨host, fault, random, request, body, rfl⟩ := hcreate
    apply allTokens_handleCreatePublishToken hw
    intro t hrequested _ hhash
    exact absurd (hrequested.1.symm.trans hhash) hother
  · apply allTokens_apply (fun _ _ h => h) hw
    intro host fault random request body hevent
    exact hcreate ⟨host, fault, random, request, body, hevent⟩

/-- A token whose text comes before that of the clock is not accepted. -/
theorem expired_of_withText {second : ℤ} (hw : AllTokens (WithText (tokenHash env clear) text) w.grants)
    (hne : text ≠ "")
    (horder : (second + 1).toNat < year10000 → text < utcTimestamp (second + 1).toNat) :
    Expired env w clear second := by
  intro t host request scope package hafter hyear hclock hidentity hclear
  have hnext : (second + 1).toNat ≤ t := by omega
  have htext : text < utcTimestamp t := by
    rcases hnext.lt_or_eq with hlt | heq
    · exact (horder (by omega)).trans (utcTimestamp_lt hlt hyear)
    · exact heq ▸ horder (by omega)
  have hrejected : tokenAuthorized env host w request.headers scope package = false := by
    rw [Bool.eq_false_iff]
    intro haccepted
    obtain ⟨token, htoken, hhash, ⟨-, hlive⟩, -⟩ := exists_of_tokenAuthorized hw hclear haccepted
    rw [htoken hhash, hclock] at hlive
    exact hlive ⟨hne, htext⟩
  simp [registryWriteAuthorized, failAt, Prog.read, hidentity, hrejected, bind, pure]

/-- Tokens of a text that is in order expire in time. -/
theorem expiresInTime_of_sortsInTime (h : text = "" ∨ SortsInTime instant text) :
    ExpiresInTime env cfg instant text := by
  intro w host fault random request body response w' _ htext hnew hrun hstatus hne
  obtain ⟨second, hsecond, horder⟩ := h.resolve_left hne
  refine ⟨second, hsecond, ?_⟩
  intro clear hclear events hother
  have hanswered : answeredToken (handleCreatePublishToken env host fault random request body w).1 =
      some clear := by
    rw [hrun]
    exact hclear
  obtain rfl := answeredToken_handleCreatePublishToken hanswered
  have hcreated : AllTokens (WithText (tokenHash env
      (clearToken (nextRegistryTokenId w) random)) text) w'.grants := by
    have hkept := @allTokens_handleCreatePublishToken env host fault w request
      (WithText (tokenHash env (clearToken (nextRegistryTokenId w) random)) text) random body
      (fun t ht hhash => absurd hhash (hnew t ht))
      (fun t _ htext' _ => Option.some.inj (htext'.symm.trans htext))
    rw [hrun] at hkept
    exact hkept
  refine expired_of_withText (hother.foldl (I := fun (w' : World) => AllTokens (WithText
    (tokenHash env (clearToken (nextRegistryTokenId w) random)) text) w'.grants) hcreated ?_)
    hne horder
  exact fun _ _ hw' hother => withText_apply hw' hother

/-- An operator asks for a token. -/
def tokenRequest : HttpRequest where
  identity := some { role := "operator", nodeId := "node" }
  body := none

/-- The first token of a registry, on all packages. -/
def firstToken (env : Environment) (text : String) : RegistryPublishTokenRecord where
  tokenId := "tok-000000000001"
  tokenHash := tokenHash env "styio_pat_tok-000000000001_"
  ownerId := "node"
  scopes := ["package:publish"]
  packagePatterns := ["*"]
  expiresAt := text
  revokedAt := ""
  createdAt := "2026-01-01"

/-- The registry that has just issued its first token. -/
def afterFirstToken (env : Environment) (text : String) : World :=
  { sampleStart with
    memory :=
      { tokens := [("tok-000000000001", firstToken env text)], nextRegistryTokenSequence := 2 } }

theorem firstToken_created :
    handleCreatePublishToken env sampleHost none "" tokenRequest
        (.object [("expires_at", .string text)]) sampleStart =
      (.ok (successResponse "created publish token"
        (.createdToken (firstToken env text) "styio_pat_tok-000000000001_")),
        afterFirstToken env text) := rfl

/-- A request that carries the first token and nothing else. -/
def firstTokenRequest : HttpRequest where
  headers := [("x-styio-registry-token", "styio_pat_tok-000000000001_")]
  body := none

theorem firstToken_carried : registryTokenFromHeaders firstTokenRequest.headers =
    some "styio_pat_tok-000000000001_" := rfl

theorem firstToken_accepted (host : Host) (h : ¬ (text ≠ "" ∧ text < host.authorizedAt)) :
    (registryWriteAuthorized env host none firstTokenRequest "package:publish" "a/b"
      (afterFirstToken env text)).1 = .ok true := by
  have hmatches : tokenMatchesPackage (firstToken env text) "a/b" = true := rfl
  have hfound : MemoryStateStore.findRegistryPublishTokenByHash (afterFirstToken env text).memory
      (sha256Bytes env ("styio_pat_tok-000000000001_".toUTF8.toList)) =
      some (firstToken env text) := by
    simp [MemoryStateStore.findRegistryPublishTokenByHash, afterFirstToken, firstToken, tokenHash]
  have haccepted : tokenAuthorized env host (afterFirstToken env text) firstTokenRequest.headers
      "package:publish" "a/b" = true := by
    have hstore : (afterFirstToken env text).postgres = none := rfl
    simp only [tokenAuthorized, firstToken_carried, hstore, hfound, hmatches, Bool.and_eq_true,
      Bool.not_eq_true', Bool.and_eq_false_iff, bne_eq_false_iff_eq, decide_eq_true_eq,
      decide_eq_false_iff_not]
    refine ⟨⟨⟨rfl, ?_⟩, List.mem_singleton.mpr rfl⟩, trivial⟩
    exact (Classical.em (text = "")).imp_right fun hne hlt => h ⟨hne, hlt⟩
  have hidentity : firstTokenRequest.identity = none := rfl
  simp [registryWriteAuthorized, failAt, Prog.read, hidentity, haccepted, bind, pure]

/-- The host at a second. -/
def hostAt (t : ℕ) : Host := { sampleHost with authorizedAt := utcTimestamp t }

/-- A text whose tokens expire in time is in order: the first token of a registry shows it. -/
theorem sortsInTime_of_expiresInTime (h : ExpiresInTime env cfg instant text) (hne : text ≠ "") :
    SortsInTime instant text := by
  obtain ⟨second, hsecond, hexpired⟩ := h sampleStart sampleHost none "" tokenRequest _ _ _ rfl
    rfl nofun firstToken_created rfl hne
  refine ⟨second, hsecond, fun hyear => ?_⟩
  by_contra hlate
  have hrejected := hexpired "styio_pat_tok-000000000001_" rfl [] trivial (second + 1).toNat
    (hostAt (second + 1).toNat) firstTokenRequest "package:publish" "a/b" (by omega) hyear rfl
    rfl firstToken_carried
  have hclock : (hostAt (second + 1).toNat).authorizedAt = utcTimestamp (second + 1).toNat := rfl
  rw [List.foldl_nil, firstToken_accepted (hostAt (second + 1).toNat)] at hrejected
  · cases hrejected
  · rw [hclock]
    exact fun h => hlate h.2

/-- The tokens of a text expire in time just when the text is empty, or denotes an instant and
comes before the clock's text of the next second. -/
theorem expiresInTime_iff :
    ExpiresInTime env cfg instant text ↔ text = "" ∨ SortsInTime instant text := by
  constructor
  · intro h
    exact or_iff_not_imp_left.mpr (sortsInTime_of_expiresInTime h)
  · exact expiresInTime_of_sortsInTime

def digitsValue (l : List Char) : Option ℕ :=
  if l.all Char.isDigit then some (Nat.ofDigitChars 10 l 0) else none

/-- `Z`, or hours and minutes before or behind UTC, in seconds. -/
def isoOffset : List Char → Option ℤ
  | ['Z'] => some 0
  | [sign, h₁, h₂, ':', m₁, m₂] => do
    let hours ← digitsValue [h₁, h₂]
    let minutes ← digitsValue [m₁, m₂]
    let seconds : ℤ := hours * 3600 + minutes * 60
    if sign = '+' then some seconds else if sign = '-' then some (-seconds) else none
  | _ => none

/-- The second of a complete date and time of ISO 8601 in the extended format, from 1970 on. -/
def isoInstant (text : String) : Option ℤ :=
  match text.toList with
  | y₁ :: y₂ :: y₃ :: y₄ :: '-' :: m₁ :: m₂ :: '-' :: d₁ :: d₂ :: 'T' :: h₁ :: h₂ :: ':' ::
      n₁ :: n₂ :: ':' :: s₁ :: s₂ :: zone => do
    let year ← digitsValue [y₁, y₂, y₃, y₄]
    let month ← digitsValue [m₁, m₂]
    let day ← digitsValue [d₁, d₂]
    let hour ← digitsValue [h₁, h₂]
    let minute ← digitsValue [n₁, n₂]
    let second ← digitsValue [s₁, s₂]
    let offset ← isoOffset zone
    let monthDays ← (daysInMonths (isLeapYear year))[month - 1]?
    if 1970 ≤ year ∧ 1 ≤ month ∧ 1 ≤ day ∧ day ≤ monthDays ∧ hour < 24 ∧ minute < 60 ∧
        second < 60 then
      let days := yearStart (year - 1970) + monthStart (isLeapYear year) (month - 1) + (day - 1)
      some (((days * 24 + hour) * 60 + minute) * 60 + second - offset)
    else none
  | _ => none

/-- Two o'clock in a zone two hours ahead of UTC: until two o'clock UTC the token is accepted. -/
theorem not_expiresInTime_of_offset :
    ¬ ExpiresInTime sampleEnvironment sampleConfig isoInstant "2026-06-09T02:00:00+02:00" := by
  intro h
  have hdenotes : isoInstant "2026-06-09T02:00:00+02:00" = some 1780963200 := by decide +kernel
  have hclock : utcTimestamp 1780963201 = "2026-06-09T00:00:01Z" := by decide +kernel
  obtain ⟨second, hsecond, horder⟩ := sortsInTime_of_expiresInTime h (by decide)
  obtain rfl : second = 1780963200 := Option.some.inj (hsecond.symm.trans hdenotes)
  have hlt := horder (by decide +kernel)
  rw [show ((1780963200 : ℤ) + 1).toNat = 1780963201 from rfl, hclock] at hlt
  revert hlt
  decide

end StyioPlatform.Registry
