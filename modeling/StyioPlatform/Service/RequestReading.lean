import StyioPlatform.Service.HttpFraming

/-! Where a request ends: the body that the parser cuts out, and that the way in which the network
divides the bytes does not show. -/
namespace StyioPlatform.HttpFraming

variable {raw head rest body more : Bytes} {r : RawHttpRequest} {n : ℕ}

theorem parse_eq_ok : parseRawHttpRequest raw = .ok r ↔ ∃ head rest n,
    cutAt terminator raw = some (head, rest) ∧
    parseHead (chars head) = .ok (r.method, r.target, r.headers) ∧
    contentLength r.headers = some n ∧ (head.length + 4 + n) % 2 ^ 64 ≤ raw.length ∧
    r.body = (raw.drop (head.length + 4)).take n := by
  unfold parseRawHttpRequest
  cases hcut : cutAt terminator raw with
  | none => simp
  | some cut =>
    obtain ⟨head, rest⟩ := cut
    simp only [bind_ok_iff, Option.some.injEq, Prod.mk.injEq]
    constructor
    · rintro ⟨⟨method, target, headers⟩, hhead, h⟩
      cases hlength : contentLength headers with
      | none => simp [hlength] at h
      | some n =>
        simp only [hlength] at h
        split at h
        · cases h
        · next hlong =>
          obtain rfl := (Except.ok.inj h).symm
          exact ⟨head, rest, n, ⟨rfl, rfl⟩, hhead, hlength, Nat.not_lt.mp hlong, rfl⟩
    · rintro ⟨head', rest', n, ⟨rfl, rfl⟩, hhead, hlength, hlong, hbody⟩
      refine ⟨_, hhead, ?_⟩
      simp only [hlength, if_neg (Nat.not_lt.mpr hlong), ← hbody]
      rfl

section Boundary

/-- The text is a decimal numeral. -/
def IsNumeral (s : String) : Prop := s.toList ≠ [] ∧ ∀ c ∈ s.toList, c.isDigit = true

instance : DecidablePred IsNumeral := fun _ => @instDecidableAnd _ _ _ (List.decidableBAll _ _)

/-- The number that a numeral denotes. -/
def numeralValue (s : String) : ℕ := Nat.ofDigitChars 10 s.toList 0

def bytesOf (s : String) : Bytes := s.toList.map fun c => UInt8.ofNat c.toNat

/-- A request with this value of the Content-Length header. -/
def lengthRequest (value : String) : Bytes :=
  bytesOf ("POST /jobs HTTP/1.1\r\nContent-Length: " ++ value ++ "\r\n\r\nabcd")

end Boundary

section Division

variable {request stream tail : Bytes} {reads : List Bytes} {errors : ReadErrors} {size : ℕ}
  {method target : String} {headers headers' : Headers} {lines : List (List Char)}

/-- A request line and header lines that the parser takes, and a body of the length that the header
denotes; all of it leaves room for one more read. -/
structure CompleteRequest (request head body : Bytes) : Prop where
  first : cutAt terminator request = some (head, body)
  parsed : ∃ method target headers, parseHead (chars head) = .ok (method, target, headers) ∧
    (getKey headers "content-length" = none ∧ body = [] ∨
      ∃ value, getKey headers "content-length" = some value ∧ IsNumeral value ∧
        numeralValue value = body.length)
  size : request.length + 4096 ≤ maxRequestBytes

theorem CompleteRequest.length_eq (h : CompleteRequest request head body) :
    request.length = head.length + 4 + body.length := by
  have hsplit := congrArg List.length (eq_of_cutAt h.first)
  simp only [List.length_append, terminator, List.length_cons, List.length_nil] at hsplit
  omega

theorem CompleteRequest.bound (h : CompleteRequest request head body) :
    head.length + 4 + body.length < 2 ^ 63 := by
  have hsize := h.size
  have hlength := h.length_eq
  simp only [maxRequestBytes] at hsize
  omega

theorem CompleteRequest.exists_length (h : CompleteRequest request head body) :
    ∃ method target headers, parseHead (chars head) = .ok (method, target, headers) ∧
      contentLength headers = some body.length := by
  obtain ⟨method, target, headers, hhead, hbody⟩ := h.parsed
  refine ⟨method, target, headers, hhead, ?_⟩
  rcases hbody with ⟨hnone, rfl⟩ | ⟨value, hvalue, hnumeral, hlength⟩
  · rw [contentLength, hnone]
    rfl
  · have hsmall : Nat.ofDigitChars 10 value.toList 0 < 2 ^ 64 := by
      have hbound := h.bound
      rw [numeralValue] at hlength
      omega
    rw [contentLength, hvalue]
    exact (stoul_of_digits hnumeral.1 hnumeral.2 hsmall).trans (congrArg some hlength)

/-- A complete request is parsed alike whatever follows it. -/
theorem CompleteRequest.parse (h : CompleteRequest request head body) :
    ∃ r, r.body = body ∧ ∀ more, parseRawHttpRequest (request ++ more) = .ok r := by
  obtain ⟨method, target, headers, hhead, hlength⟩ := h.exists_length
  refine ⟨⟨method, target, headers, body⟩, rfl, fun more => ?_⟩
  have hbound := h.bound
  have hsize := h.length_eq
  refine parse_eq_ok.mpr ⟨head, body ++ more, body.length, cutAt_append_right h.first, hhead, hlength,
    ?_, ?_⟩
  · rw [Nat.mod_eq_of_lt (by omega), List.length_append]
    omega
  · have hdrop : (request ++ more).drop (head.length + 4) = body ++ more := by
      rw [eq_of_cutAt h.first, List.append_assoc]
      exact List.drop_left' (by simp [terminator])
    rw [hdrop, List.take_left]

/-- The second loop finds the headers that the first one has read. -/
theorem foldl_of_readHeaders (h : readHeaders lines headers = .ok headers') :
    lines.foldl (fun headers line =>
      match splitHeader (trimAscii line) with
      | none => headers
      | some (name, value) => setKey headers name value) headers = headers' := by
  induction lines generalizing headers with
  | nil => exact Except.ok.inj h
  | cons line lines ih =>
    rw [readHeaders] at h
    rw [List.foldl_cons]
    split at h
    · next hblank =>
      rw [hblank]
      exact ih h
    · split at h
      · cases h
      · next name value hsplit => simpa only [hsplit] using ih h

theorem scanHeaders_of_parseHead {text : List Char}
    (h : parseHead text = .ok (method, target, headers)) :
    scanHeaders (getlines text).tail = headers := by
  unfold parseHead at h
  split at h
  · cases h
  · next line lines hlines =>
    rw [hlines, List.tail_cons]
    split at h
    · simp only [bind_ok_iff] at h
      obtain ⟨headers', hread, hpair⟩ := h
      obtain rfl : headers' = headers :=
        (Prod.mk.inj (Prod.mk.inj (Except.ok.inj hpair)).2).2
      exact foldl_of_readHeaders hread
    · cases h

/-- The first terminator of what was read is that of the stream, once it has come. -/
theorem cutAt_of_isSome (hcut : cutAt terminator stream = some (head, tail)) (hraw : raw <+: stream)
    (hsome : (cutAt terminator raw).isSome) : ∃ x, cutAt terminator raw = some (head, x) := by
  obtain ⟨⟨head', x⟩, hx⟩ := Option.isSome_iff_exists.mp hsome
  obtain ⟨rest, rfl⟩ := hraw
  have hlong : cutAt terminator (raw ++ rest) = some (head', x ++ rest) := cutAt_append_right hx
  rw [hcut] at hlong
  obtain ⟨rfl, -⟩ := Prod.mk.inj (Option.some.inj hlong)
  exact ⟨x, hx⟩

theorem cutAt_of_long (hcut : cutAt terminator stream = some (head, tail)) (hraw : raw <+: stream)
    (hlong : head.length + 4 ≤ raw.length) : (cutAt terminator raw).isSome := by
  have hstream := eq_of_cutAt hcut
  have hprefix : head ++ terminator <+: raw := by
    refine List.prefix_of_prefix_length_le ⟨tail, hstream.symm⟩ hraw ?_
    simpa [terminator] using hlong
  obtain ⟨x, rfl⟩ := hprefix
  rw [cutAt_of_cutAt (by decide) (hstream ▸ hcut)]
  rfl

theorem readHead_spec (hcut : cutAt terminator stream = some (head, tail))
    (hroom : head.length + 4 + 4096 ≤ maxRequestBytes)
    (hsizes : ∀ bytes ∈ reads, bytes.length ≤ 4096) (hstream : raw ++ reads.flatten = stream) :
    ∃ raw' reads', readHead errors reads raw = .ok (raw', reads') ∧
      (cutAt terminator raw').isSome ∧ raw' ++ reads'.flatten = stream ∧
      ∀ bytes ∈ reads', bytes.length ≤ 4096 := by
  induction reads generalizing raw with
  | nil =>
    have hsome : (cutAt terminator raw).isSome := by
      rw [← hstream, List.flatten_nil, List.append_nil] at hcut
      rw [hcut]
      rfl
    exact ⟨raw, [], by rw [readHead, if_pos hsome], hsome, hstream, hsizes⟩
  | cons bytes reads ih =>
    by_cases hsome : (cutAt terminator raw).isSome
    · exact ⟨raw, bytes :: reads, by rw [readHead, if_pos hsome], hsome, hstream, hsizes⟩
    · have hshort : raw.length < head.length + 4 := by
        by_contra hlong
        exact hsome (cutAt_of_long hcut ⟨_, hstream⟩ (by omega))
      have hbytes := hsizes bytes List.mem_cons_self
      have hfits : ¬ maxRequestBytes < (raw ++ bytes).length := by
        rw [List.length_append]
        omega
      have hrest : (raw ++ bytes) ++ reads.flatten = stream := by simpa using hstream
      obtain ⟨raw', reads', hread, h⟩ := ih (fun b hb => hsizes b (List.mem_cons_of_mem _ hb)) hrest
      refine ⟨raw', reads', ?_, h⟩
      rw [readHead, if_neg hsome]
      simpa only [if_neg hfits] using hread

theorem readBody_spec (hroom : size + 4096 ≤ maxRequestBytes) (hsize : size ≤ stream.length)
    (hsizes : ∀ bytes ∈ reads, bytes.length ≤ 4096) (hstream : raw ++ reads.flatten = stream) :
    ∃ raw', readBody errors size reads raw = .ok raw' ∧ raw' <+: stream ∧ size ≤ raw'.length := by
  induction reads generalizing raw with
  | nil =>
    rw [List.flatten_nil, List.append_nil] at hstream
    subst hstream
    exact ⟨raw, by rw [readBody, if_pos hsize], List.prefix_refl _, hsize⟩
  | cons bytes reads ih =>
    by_cases hlong : size ≤ raw.length
    · exact ⟨raw, by rw [readBody, if_pos hlong], ⟨_, hstream⟩, hlong⟩
    · have hbytes := hsizes bytes List.mem_cons_self
      have hfits : ¬ maxRequestBytes < (raw ++ bytes).length := by
        rw [List.length_append]
        omega
      have hrest : (raw ++ bytes) ++ reads.flatten = stream := by simpa using hstream
      obtain ⟨raw', hread, h⟩ := ih (fun b hb => hsizes b (List.mem_cons_of_mem _ hb)) hrest
      refine ⟨raw', ?_, h⟩
      rw [readBody, if_neg hlong]
      simpa only [if_neg hfits] using hread

/-- The reader waits for the body of the request, whether it has come or not. -/
theorem awaitedLength_eq (h : CompleteRequest request head body) (hraw : raw <+: request ++ more)
    (hsome : (cutAt terminator raw).isSome) :
    awaitedLength raw = .ok body.length ∧ headOf raw = head := by
  have hcut : cutAt terminator (request ++ more) = some (head, body ++ more) :=
    cutAt_append_right h.first
  obtain ⟨x, hx⟩ := cutAt_of_isSome hcut hraw hsome
  have hhead : headOf raw = head := by simp [headOf, hx]
  refine ⟨?_, hhead⟩
  obtain ⟨method, target, headers, hparse, hlength⟩ := h.exists_length
  unfold awaitedLength
  cases hraw' : parseRawHttpRequest raw with
  | ok r =>
    obtain ⟨head', rest, n, hcut, hparse', hlength', hlong, hbody⟩ := parse_eq_ok.mp hraw'
    obtain ⟨rfl, -⟩ := Prod.mk.inj (Option.some.inj (hx.symm.trans hcut))
    obtain ⟨-, -, rfl⟩ : _ ∧ _ ∧ headers = r.headers := by
      simpa using hparse.symm.trans hparse'
    obtain rfl : body.length = n := Option.some.inj (hlength.symm.trans hlength')
    have hbound := h.bound
    rw [Nat.mod_eq_of_lt (by omega)] at hlong
    change Except.ok r.body.length = _
    rw [hbody, List.length_take, List.length_drop, min_eq_left (by omega)]
  | error e => simp only [hhead, scanHeaders_of_parseHead hparse, hlength]

/-- Whatever the division of the stream, what is read is parsed as the whole stream. -/
theorem readRequest_divided (h : CompleteRequest request head body)
    (hsizes : ∀ bytes ∈ reads, bytes ≠ [] ∧ bytes.length ≤ 4096)
    (hstream : reads.flatten = request ++ more) :
    ∃ raw r, readRequest errors reads = .ok raw ∧ parseRawHttpRequest raw = .ok r ∧
      parseRawHttpRequest (request ++ more) = .ok r := by
  have hsize := h.size
  have hlength := h.length_eq
  have hbound := h.bound
  obtain ⟨raw, reads', hread, hsome, hrest, hsizes'⟩ := @readHead_spec [] head (request ++ more) _
    reads errors (cutAt_append_right h.first) (by omega) (fun b hb => (hsizes b hb).2) (by simpa)
  obtain ⟨hawaited, hhead⟩ := awaitedLength_eq h ⟨_, hrest⟩ hsome
  obtain ⟨raw', hread', hprefix, hlong⟩ := @readBody_spec raw (request ++ more) reads' errors
    request.length hsize (by simp) hsizes' hrest
  obtain ⟨r, -, hparse⟩ := h.parse
  have hwhole : request <+: raw' :=
    List.prefix_of_prefix_length_le (List.prefix_append _ _) hprefix hlong
  obtain ⟨extra, rfl⟩ := hwhole
  refine ⟨request ++ extra, r, ?_, hparse extra, hparse more⟩
  rw [readRequest, hread]
  simp only [bind, Except.bind, hawaited, hhead]
  rw [Nat.mod_eq_of_lt (by omega), ← hlength]
  exact hread'

/-- Both readers. -/
theorem reading_ignores_division (h : CompleteRequest request head body)
    (hsizes : ∀ bytes ∈ reads, bytes ≠ [] ∧ bytes.length ≤ 4096)
    (hstream : reads.flatten = request ++ more) :
    (∃ raw r, readSslHttpRequest reads = .ok raw ∧ parseRawHttpRequest raw = .ok r ∧
      parseRawHttpRequest (request ++ more) = .ok r) ∧
    ∃ raw r, readHttpRequest reads = .ok raw ∧ parseRawHttpRequest raw = .ok r ∧
      parseRawHttpRequest (request ++ more) = .ok r :=
  ⟨readRequest_divided h hsizes hstream, readRequest_divided h hsizes hstream⟩

/-- A request that comes in three reads, cut in its terminator and in its body, with a further byte
at its end. -/
theorem reading_ignores_division_sample :
    (∃ raw r, readSslHttpRequest [(lengthRequest "3").take 39, ((lengthRequest "3").drop 39).take 4,
        (lengthRequest "3").drop 43] = .ok raw ∧
      parseRawHttpRequest raw = .ok r ∧
      parseRawHttpRequest ((lengthRequest "3").take 45 ++ bytesOf "d") = .ok r) ∧
    ∃ raw r, readHttpRequest [(lengthRequest "3").take 39, ((lengthRequest "3").drop 39).take 4,
        (lengthRequest "3").drop 43] = .ok raw ∧
      parseRawHttpRequest raw = .ok r ∧
      parseRawHttpRequest ((lengthRequest "3").take 45 ++ bytesOf "d") = .ok r :=
  have hcomplete : CompleteRequest ((lengthRequest "3").take 45)
      (bytesOf "POST /jobs HTTP/1.1\r\nContent-Length: 3") (bytesOf "abc") :=
    ⟨by decide +kernel, ⟨"POST", "/jobs", [("content-length", "3")], by decide +kernel,
      Or.inr ⟨"3", by decide +kernel⟩⟩, by decide +kernel⟩
  reading_ignores_division hcomplete (by decide +kernel) (by decide +kernel)

end Division

end StyioPlatform.HttpFraming
