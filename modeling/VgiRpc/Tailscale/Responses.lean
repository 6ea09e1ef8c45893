import VgiRpc.Tailscale.Framing

/-!
# What `request_whois` makes of a response

A response with a status of 200 is a head, and a body in the framing that the head announces.  However
its bytes are cut into results, and whatever follows them, `request_whois` gives exactly that body; a
response that is cut short, announces two framings or goes beyond the limits is refused.
-/

namespace VgiRpc.Tailscale

open VgiRpc.Cpp VgiRpc.Lib VgiRpc.Identity SocketReader

/-! ## Responses -/

/-- A response with a status of 200 as it is written. -/
@[ext] structure Response where
  headerBlock : Bytes
  headers : Headers
  framed : Framed
  head : parseHead headerBlock = .ok { status := 200, headers }
  ends : cut headEnd (headerBlock ++ headEnd) = some (headerBlock, [])
  announced : framed.Announced headers

namespace Response

variable (response : Response) (incoming : List Received) (maxHeaderBytes maxBodyBytes : Nat)

/-- What is to be read of a response. -/
def read : HttpResponse := { status := 200, headers := response.headers, body := response.framed.body }

/-- The response is all there, cut into results in some way. -/
def Arrives : Prop :=
  ∃ behind, delivered incoming = response.headerBlock ++ (headEnd ++ behind) ∧
    response.framed.Arrives behind (closes incoming)

/-- The response is not all there. -/
def Truncated : Prop :=
  ∃ missing, delivered incoming ++ missing = response.headerBlock ++ (headEnd ++ response.framed.wire) ∧
    if response.framed.toClose = true then
      closes incoming = false ∨ (delivered incoming).length < response.headerBlock.length + 4
    else missing ≠ []

/-- Head, body and trailers stay within the limits. -/
def Fits : Prop :=
  response.headerBlock.length + 4 ≤ maxHeaderBytes ∧ response.framed.body.length ≤ maxBodyBytes ∧
    response.framed.trailers ≤ maxHeaderBytes

end Response

/-- A response with a written head. -/
def Head.response (head : Head) (framed : Framed)
    (announced : framed.Announced (head.fields.map HeaderField.entry)) : Response where
  headerBlock := head.block
  headers := head.fields.map HeaderField.entry
  framed := framed
  head := head.parseHead_block
  ends := head.cut_headEnd_block
  announced := announced

/-! ## Runs -/

section Runs

variable {maxHeaderBytes maxBodyBytes : Nat} {incoming : List Received} {response : Response}
variable {got : HttpResponse} {headerBlock behind : Bytes} {headers : Headers}

/-- A head carries no body. -/
theorem parseHead_body {head : HttpResponse} (parsed : parseHead headerBlock = .ok head) : head.body = [] := by
  rw [parseHead] at parsed
  split at parsed
  next =>
      rw [bind_eq_ok_iff] at parsed
      obtain ⟨status, -, same⟩ := parsed
      cases same
      rfl
  next =>
      rw [bind_eq_ok_iff] at parsed
      obtain ⟨status, -, parsed⟩ := parsed
      rw [bind_eq_ok_iff] at parsed
      obtain ⟨headers, -, same⟩ := parsed
      cases same
      rfl

/-- What a request that gives a response has found in its stream. -/
theorem requestWhois_found (read : requestWhois maxHeaderBytes maxBodyBytes incoming = .ok got) :
    ∃ headerBlock behind, cut headEnd (delivered incoming) = some (headerBlock, behind) ∧
      headerBlock.length + 4 ≤ maxHeaderBytes ∧ ∃ head, parseHead headerBlock = .ok head ∧
        ((head.status ≠ 200 ∧ got = head) ∨
          (head.status = 200 ∧ ∃ framed : Framed, framed.Announced head.headers ∧
            framed.Arrives behind (closes incoming) ∧ framed.body.length ≤ maxBodyBytes ∧
              framed.trailers ≤ maxHeaderBytes ∧ got = { head with body := framed.body })) := by
  rw [requestWhois, bind_eq_ok_iff] at read
  obtain ⟨⟨headerBlock, behind, rest⟩, readHead, read⟩ := read
  obtain ⟨found, closed⟩ := readHead_ok readHead
  refine ⟨headerBlock, behind ++ delivered rest, found, ?_⟩
  simp only at read
  split at read
  next => cases read
  next fits =>
      refine ⟨Nat.le_of_not_lt fits, ?_⟩
      rw [bind_eq_ok_iff] at read
      obtain ⟨head, parsed, read⟩ := read
      refine ⟨head, parsed, ?_⟩
      split at read
      next other =>
          cases read
          exact .inl ⟨other, rfl⟩
      next success =>
          rw [bind_eq_ok_iff] at read
          obtain ⟨⟨body, next⟩, readBody, same⟩ := read
          obtain ⟨framed, announced, arrives, rfl, small, trailers⟩ := readBody_ok readBody rfl
          cases same
          rw [← closed]
          exact .inr ⟨not_not.mp success, framed, announced, arrives, small, trailers, rfl⟩

/-- The head of a response is found, and what is behind it. -/
theorem Response.cut_text {text : Bytes} (whole : text = response.headerBlock ++ (headEnd ++ behind)) :
    cut headEnd text = some (response.headerBlock, behind) := by
  rw [whole, ← List.append_assoc]
  exact cut_append response.ends behind

/-- A response that is read is one that arrives, within the limits. -/
theorem requestWhois_sound (read : requestWhois maxHeaderBytes maxBodyBytes incoming = .ok got)
    (success : got.status = 200) :
    ∃ response : Response, response.Arrives incoming ∧ response.Fits maxHeaderBytes maxBodyBytes ∧
      got = response.read := by
  obtain ⟨headerBlock, behind, found, fits, head, parsed, other | whole⟩ := requestWhois_found read
  · obtain ⟨failed, rfl⟩ := other
    exact absurd success failed
  · obtain ⟨status, framed, announced, arrives, small, trailers, rfl⟩ := whole
    have same : head = { status := 200, headers := head.headers } := by
      rw [← status, ← parseHead_body parsed]
    refine ⟨⟨headerBlock, head.headers, framed, parsed.trans (congrArg Except.ok same),
      cut_front (List.cons_ne_nil _ _) found, announced⟩, ⟨behind, append_of_cut found, arrives⟩,
      ⟨fits, small, trailers⟩, ?_⟩
    exact congrArg (fun status => ({ status, headers := head.headers, body := framed.body } : HttpResponse)) status

/-- Of one stream there is one response. -/
theorem Response.unique {other : Response} (arrives : response.Arrives incoming)
    (arrives' : other.Arrives incoming) : response = other := by
  obtain ⟨behind, whole, framed⟩ := arrives
  obtain ⟨behind', whole', framed'⟩ := arrives'
  have same := (response.cut_text whole).symm.trans (other.cut_text whole')
  obtain ⟨headerBlock, rfl⟩ := Prod.mk.inj (Option.some.inj same)
  have parsed := response.head
  rw [headerBlock, other.head, Except.ok.injEq, HttpResponse.mk.injEq] at parsed
  have headers := parsed.2.1.symm
  have announced := response.announced
  rw [headers] at announced
  exact Response.ext headerBlock headers (Framed.unique announced other.announced framed framed')

/-- A request gives what the head of its stream says. -/
theorem requestWhois_of_head (read : requestWhois maxHeaderBytes maxBodyBytes incoming = .ok got)
    (found : cut headEnd (delivered incoming) = some (headerBlock, behind))
    (parsed : parseHead headerBlock = .ok { status := 200, headers }) :
    got.status = 200 ∧ ∃ framed : Framed, framed.Announced headers ∧ framed.Arrives behind (closes incoming) := by
  obtain ⟨block, tail, again, -, head, parsedAgain, outcome⟩ := requestWhois_found read
  obtain ⟨rfl, rfl⟩ := Prod.mk.inj (Option.some.inj (again.symm.trans found))
  rw [parsed, Except.ok.injEq] at parsedAgain
  subst parsedAgain
  obtain ⟨other, -⟩ | ⟨-, framed, announced, arrives, -, -, rfl⟩ := outcome
  · exact absurd rfl other
  · exact ⟨rfl, framed, announced, arrives⟩

/-- Only a response within the limits is read, and nothing but its body. -/
theorem requestWhois_fits (arrives : response.Arrives incoming)
    (read : requestWhois maxHeaderBytes maxBodyBytes incoming = .ok got) :
    got = response.read ∧ response.Fits maxHeaderBytes maxBodyBytes := by
  obtain ⟨behind, whole, -⟩ := id arrives
  obtain ⟨success, -⟩ := requestWhois_of_head read (response.cut_text whole) response.head
  obtain ⟨other, arrives', fits, same⟩ := requestWhois_sound read success
  obtain rfl := response.unique arrives arrives'
  exact ⟨same, fits⟩

/-- A response within the limits is read. -/
theorem requestWhois_read (arrives : response.Arrives incoming)
    (fits : response.Fits maxHeaderBytes maxBodyBytes) (below : response.framed.LinesFit maxHeaderBytes) :
    requestWhois maxHeaderBytes maxBodyBytes incoming = .ok response.read := by
  obtain ⟨behind, whole, framed⟩ := arrives
  obtain ⟨small, body, trailers⟩ := fits
  have found := response.cut_text whole
  cases read : readHead maxHeaderBytes [] incoming with
  | error failure => exact absurd (readHead_error read found) (Nat.not_lt.mpr small)
  | ok result =>
      obtain ⟨headerBlock, start, rest⟩ := result
      obtain ⟨again, closed⟩ := readHead_ok read
      obtain ⟨rfl, rfl⟩ := Prod.mk.inj (Option.some.inj (again.symm.trans found))
      rw [← closed] at framed
      obtain ⟨next, readBody⟩ := @readBody_read maxHeaderBytes maxBodyBytes _ _
        ⟨start, 0, false, rest, Nat.zero_le _⟩ response.announced framed body below trailers
      rw [requestWhois, read]
      simp only [bind, Except.bind, if_neg (Nat.not_lt.mpr small), response.head, ne_eq, not_true, if_false,
        readBody]
      rfl

/-- A response that is cut short is not read. -/
theorem requestWhois_truncated (truncated : response.Truncated incoming) :
    requestWhois maxHeaderBytes maxBodyBytes incoming ≠ .ok got := by
  intro read
  obtain ⟨missing, whole, short⟩ := truncated
  obtain ⟨headerBlock, behind, found, -⟩ := requestWhois_found read
  have same := (cut_append found missing).symm.trans (response.cut_text whole)
  obtain ⟨rfl, rest⟩ := Prod.mk.inj (Option.some.inj same)
  obtain ⟨-, framed, announced, arrives⟩ := requestWhois_of_head read found response.head
  split at short
  next toClose =>
      have alike := (framed.toClose_iff announced).mpr ((response.framed.toClose_iff response.announced).mp toClose)
      obtain still | short := short
      · rw [framed.ended_of_arrives alike arrives] at still
        cases still
      · rw [length_of_cut found] at short
        simp only [headEnd, List.length_cons, List.length_nil] at short
        omega
  next delimited =>
      have closed : response.framed.toClose = false := Bool.eq_false_of_not_eq_true delimited
      have alike : framed.toClose = false := by
        rw [← closed, Bool.eq_iff_iff, framed.toClose_iff announced, response.framed.toClose_iff response.announced]
      have wire := (framed.arrives_iff alike).mp arrives
      have here : framed.Arrives (behind ++ missing) true :=
        (framed.arrives_iff alike).mpr (wire.trans (List.prefix_append behind missing))
      have there : response.framed.Arrives (behind ++ missing) true :=
        (response.framed.arrives_iff closed).mpr (by rw [rest])
      rw [Framed.unique announced response.announced here there, ← rest] at wire
      have size := wire.length_le
      rw [List.length_append] at size
      exact short (List.length_eq_zero_iff.mp (by omega))

/-- Headers that announce more than one length, or a coding other than one that is known. -/
def Ambiguous (headers : Headers) : Prop :=
  1 < (headers.values contentLength).length + (headers.values transferEncoding).length ∨
    ∃ encoding ∈ headers.values transferEncoding, lowerAscii encoding ≠ ascii "chunked"

theorem requestWhois_ambiguous (found : cut headEnd (delivered incoming) = some (headerBlock, behind))
    (parsed : parseHead headerBlock = .ok { status := 200, headers }) (ambiguous : Ambiguous headers) :
    requestWhois maxHeaderBytes maxBodyBytes incoming ≠ .ok got := by
  intro read
  obtain ⟨-, framed, announced, -⟩ := requestWhois_of_head read found parsed
  cases framed with
  | length body =>
      obtain ⟨raw, lengths, encodings, -⟩ := announced
      simp [Ambiguous, lengths, encodings] at ambiguous
  | chunked chunks last =>
      obtain ⟨encoding, lengths, encodings, chunked⟩ := announced
      simp [Ambiguous, lengths, encodings, chunked] at ambiguous
  | close body =>
      obtain ⟨lengths, encodings⟩ := announced
      simp [Ambiguous, lengths, encodings] at ambiguous

end Runs

/-! ## Ends -/

section Ends

variable {maxHeaderBytes maxBodyBytes : Nat} {incoming : List Received}

/-- A result that nothing follows. -/
def isFinal : Received → Bool
  | .closed | .failed | .unready _ => true
  | _ => false

def hasBytes : Received → Bool
  | .bytes _ _ => true
  | _ => false

/-- Number of results with bytes in them after which a request is over. -/
def whoisPatience (maxHeaderBytes maxBodyBytes : Nat) : Nat :=
  maxHeaderBytes + 1 + chunksPatience maxHeaderBytes maxBodyBytes

/-- Where a final result counts for more than there are in all, there is none. -/
theorem arrivals_lt {ending : Nat} (few : arrivals ending incoming < ending) :
    (∀ result ∈ incoming, isFinal result = false) ∧ arrivals ending incoming = incoming.countP hasBytes := by
  induction incoming with
  | nil => exact ⟨List.forall_mem_nil _, rfl⟩
  | cons result rest inductionHypothesis =>
      cases result with
      | bytes first more =>
          rw [arrivals] at few ⊢
          obtain ⟨going, count⟩ := inductionHypothesis (Nat.lt_of_succ_lt few)
          exact ⟨List.forall_mem_cons.mpr ⟨rfl, going⟩, by rw [count, List.countP_cons_of_pos rfl]⟩
      | wouldBlock =>
          obtain ⟨going, count⟩ := inductionHypothesis few
          exact ⟨List.forall_mem_cons.mpr ⟨rfl, going⟩, count⟩
      | closed => exact absurd few (lt_irrefl _)
      | failed => exact absurd few (lt_irrefl _)
      | unready what => exact absurd few (lt_irrefl _)

theorem parseStatus_decided {statusLine : Bytes} : parseStatus statusLine ≠ .error .waiting := by
  rw [parseStatus]
  split
  next => rintro ⟨⟩
  next =>
      split
      next => rintro ⟨⟩
      next => rintro ⟨⟩

theorem parseHeader_decided {line : Bytes} : parseHeader line ≠ .error .waiting := by
  rw [parseHeader]
  split
  next => rintro ⟨⟩
  next =>
      split
      next => rintro ⟨⟩
      next =>
          split
          next => rintro ⟨⟩
          next =>
              split
              next => rintro ⟨⟩
              next => rintro ⟨⟩

theorem parseHeaders_decided {text : Bytes} {headers : Headers} :
    parseHeaders text headers ≠ .error .waiting := by
  induction size : text.length using Nat.strong_induction_on generalizing text headers with
  | _ size inductionHypothesis =>
      rw [parseHeaders]
      split
      next => rintro ⟨⟩
      next =>
          split
          next => exact bind_ne_error parseHeader_decided (by rintro _ ⟨⟩)
          next line rest found =>
              have shorter := length_of_cut found
              simp only [crlf, List.length_cons, List.length_nil] at shorter
              exact bind_ne_error parseHeader_decided fun header =>
                inductionHypothesis rest.length (by omega) rfl

theorem parseHead_decided {headerBlock : Bytes} : parseHead headerBlock ≠ .error .waiting := by
  rw [parseHead]
  split
  next => exact bind_ne_error parseStatus_decided (by rintro _ ⟨⟩)
  next => exact bind_ne_error parseStatus_decided fun status =>
      bind_ne_error parseHeaders_decided (by rintro _ ⟨⟩)

theorem requestWhois_takes {ending : Nat}
    (waiting : requestWhois maxHeaderBytes maxBodyBytes incoming = .error .waiting) :
    arrivals ending incoming ≤ whoisPatience maxHeaderBytes maxBodyBytes := by
  have head : Within (· = .waiting) (fun result => arrivals ending result.2.2) (arrivals ending incoming)
      (maxHeaderBytes + 1) (readHead maxHeaderBytes [] incoming) := readHead_takes
  rw [requestWhois] at waiting
  cases read : readHead maxHeaderBytes [] incoming with
  | error failure =>
      rw [read] at waiting head
      cases waiting
      have few : arrivals ending incoming ≤ maxHeaderBytes + 1 := head rfl
      exact Nat.le_add_right_of_le few
  | ok result =>
      obtain ⟨headerBlock, behind, rest⟩ := result
      rw [read] at waiting head
      have few : arrivals ending incoming ≤ arrivals ending rest + (maxHeaderBytes + 1) := head
      simp only [bind, Except.bind] at waiting
      split at waiting
      next => cases waiting
      next =>
          split at waiting
          next failure thrown =>
              cases waiting
              exact absurd thrown parseHead_decided
          next response parsed =>
              split at waiting
              next => cases waiting
              next =>
                  split at waiting
                  next failure thrown =>
                      cases waiting
                      have body := @readBody_takes maxHeaderBytes maxBodyBytes response.headers
                        ⟨behind, 0, false, rest, Nat.zero_le _⟩ ending
                      rw [thrown] at body
                      have fewBehind : arrivals ending rest ≤ chunksPatience maxHeaderBytes maxBodyBytes := body rfl
                      rw [whoisPatience]
                      omega
                  next => cases waiting

end Ends

/-! ## The reader -/

/-- What a reader of responses promises. -/
structure ReadsResponses (maxHeaderBytes maxBodyBytes : Nat)
    (request : List Received → Except Failure HttpResponse) : Prop where
  /-- A body within the limits is read, whatever its framing and however it is cut. -/
  complete : ∀ (response : Response) (incoming : List Received), response.Arrives incoming →
    response.Fits maxHeaderBytes maxBodyBytes → response.framed.LinesFit maxHeaderBytes →
      request incoming = .ok response.read
  /-- Nothing but the body of a response that has arrived is read. -/
  sound : ∀ (incoming : List Received) (got : HttpResponse), request incoming = .ok got → got.status = 200 →
    ∃ response : Response, response.Arrives incoming ∧ response.Fits maxHeaderBytes maxBodyBytes ∧
      got = response.read
  /-- Of a response that arrives nothing else is read, and nothing where it is over the limits. -/
  exact : ∀ (response : Response) (incoming : List Received) (got : HttpResponse), response.Arrives incoming →
    request incoming = .ok got → got = response.read ∧ response.Fits maxHeaderBytes maxBodyBytes
  truncated : ∀ (response : Response) (incoming : List Received) (got : HttpResponse),
    response.Truncated incoming → request incoming ≠ .ok got
  ambiguous : ∀ (headerBlock behind : Bytes) (headers : Headers) (incoming : List Received) (got : HttpResponse),
    cut headEnd (delivered incoming) = some (headerBlock, behind) →
      parseHead headerBlock = .ok { status := 200, headers } → Ambiguous headers → request incoming ≠ .ok got
  /-- A request is over after a bounded number of results with bytes, and at any final result. -/
  ends : ∀ incoming : List Received,
    (∃ result ∈ incoming, isFinal result = true) ∨
        whoisPatience maxHeaderBytes maxBodyBytes <
          incoming.countP hasBytes →
      request incoming ≠ .error .waiting

/-- Every framing and every segmentation of a response within the limits gives its body. -/
theorem requestWhois_independent (maxHeaderBytes maxBodyBytes : Nat) :
    ReadsResponses maxHeaderBytes maxBodyBytes (requestWhois maxHeaderBytes maxBodyBytes) where
  complete _ _ arrives fits below := requestWhois_read arrives fits below
  sound _ _ read success := requestWhois_sound read success
  exact _ _ _ arrives read := requestWhois_fits arrives read
  truncated _ _ _ truncated := requestWhois_truncated truncated
  ambiguous _ _ _ _ _ found parsed ambiguous := requestWhois_ambiguous found parsed ambiguous
  ends incoming enough waiting := by
    have few : arrivals (whoisPatience maxHeaderBytes maxBodyBytes + 1) incoming ≤
        whoisPatience maxHeaderBytes maxBodyBytes := requestWhois_takes waiting
    obtain ⟨going, count⟩ := arrivals_lt (Nat.lt_succ_of_le few)
    obtain ⟨result, mem, final⟩ | many := enough
    · rw [going result mem] at final
      cases final
    · rw [count] at few
      exact absurd few (Nat.not_le.mpr many)

/-! ## Many trailers -/

/-- A head of 43 bytes. -/
def chunkedHead : Head where
  version := 0x31
  reason := ascii " OK"
  fields := [{
    name := ascii "Transfer-Encoding"
    before := [0x20]
    value := ascii "chunked"
    after := []
    token := by decide
    blank := by decide
    plain := by decide
    first := by
      rintro byte ⟨⟩
      decide
    last := by
      rintro byte ⟨⟩
      decide }]
  unbroken := by decide

/-- One chunk of two bytes. -/
def smallChunk : Chunk where
  line := ascii "2;signed"
  data := ascii "{}"
  sized := ⟨ascii "2", ascii ";signed", by decide, by decide, .inr ⟨ascii "signed", rfl⟩⟩
  unbroken := by decide
  present := by decide

/-- Two trailers of 29 bytes each. -/
def twoTrailers : LastChunk where
  line := ascii "0"
  trailers := [ascii "Digest: 012345678901234567890", ascii "Signed: 012345678901234567890"]
  sized := ⟨ascii "0", [], by decide, by decide, .inl rfl⟩
  unbroken := by decide
  headers := by decide

/-- The response of the two trailers. -/
def trailersResponse : Response :=
  chunkedHead.response (.chunked [smallChunk] twoTrailers) ⟨ascii "chunked", by decide, by decide, by decide⟩

/-- Every line of a response may be below the limit, and the response over it with all of its trailers. -/
theorem many_trailers_refused :
    let incoming : List Received :=
      [.bytes 0x48 (trailersResponse.headerBlock.tail ++ (headEnd ++ trailersResponse.framed.wire))]
    trailersResponse.Arrives incoming ∧ trailersResponse.headerBlock.length + 4 ≤ 50 ∧
      trailersResponse.framed.body.length ≤ 10 ∧ trailersResponse.framed.LinesFit 50 ∧
        requestWhois 50 10 incoming ≠ .ok trailersResponse.read := by
  intro incoming
  have arrives : trailersResponse.Arrives incoming :=
    ⟨trailersResponse.framed.wire, by decide, List.prefix_refl _⟩
  have below : LinesBelow 50 [smallChunk] twoTrailers := by decide
  refine ⟨arrives, by decide, by decide, below, fun read => ?_⟩
  obtain ⟨-, -, -, fits⟩ := requestWhois_fits arrives read
  exact absurd fits (by decide)

end VgiRpc.Tailscale
