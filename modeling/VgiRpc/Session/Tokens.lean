import VgiRpc.Crypto.Base64url
import VgiRpc.Session.Locks

/-!
# Tokens of sticky sessions

`SessionRegistry::open` seals a frame that names the server and the session; `resolve` opens it
again.  One byte of the frame is the length of the server's id.
-/

namespace VgiRpc.Session

open VgiRpc.Cpp VgiRpc.Lib

/-! ## Minting -/

/-- An ideal AEAD: what is sealed opens under its associated data, and under no other. -/
structure Aead where
  encrypt : (nonce frame aad : Bytes) → Bytes
  decrypt : AeadOpen
  encrypt_ne_nil : ∀ nonce frame aad, encrypt nonce frame aad ≠ []
  opens : ∀ nonce frame aad, decrypt (encrypt nonce frame aad) aad = some frame
  opensOnly : ∀ nonce frame aad other, other ≠ aad → decrypt (encrypt nonce frame aad) other = none

/-- A session id: the hexadecimal text of twelve random bytes. -/
structure SessionId where
  text : Bytes
  size : text.length = 24

/-- What `open` draws and reads: its id, its nonce, and the clock. -/
structure Minting where
  id : SessionId
  nonce : Bytes
  createdAt : Nat
  ttl : Nat
  created : createdAt < 2 ^ 63
  positive : 0 < ttl
  ttlBound : ttl < 2 ^ 31

namespace Minting

/-- The time after which the token is refused. -/
def expiresAt (minting : Minting) : Nat := minting.createdAt + minting.ttl

/-- The frame of a token. -/
def frame (minting : Minting) (serverId : Bytes) : Bytes :=
  Memory.toBytesLE 8 minting.createdAt ++ UInt8.ofNat serverId.length :: (serverId ++
    (minting.id.text ++ Memory.toBytesLE 8 minting.expiresAt))

/-- The token that `open` returns. -/
def token (minting : Minting) (aead : Aead) (serverId aad : Bytes) : Bytes :=
  Crypto.base64urlEncode (0x01 :: aead.encrypt minting.nonce (minting.frame serverId) aad)

end Minting

/-! ## Unsealing what was minted -/

section Unseal

variable (aead : Aead) (minting : Minting) {serverId aad other reader : Bytes} {unixNow : Nat}

/-- What the reader of a frame makes of it. -/
def readFrame (serverId : Bytes) (unixNow : Nat) (frame : Bytes) : Except SessionLookup Bytes :=
  match frame.drop 8 with
  | [] => .error .unsealable
  | idLen :: rest =>
      if rest.length < idLen.toNat + 24 + 8 then
        .error .unsealable
      else
        let mintedBy := rest.take idLen.toNat
        let sessionId := (rest.drop idLen.toNat).take 24
        let expiresAt := Memory.ofBytesLE ((rest.drop (idLen.toNat + 24)).take 8)
        if mintedBy ≠ serverId then .error .wrongWorker
        else if unixNow > expiresAt then .error .expired
        else .ok sessionId

theorem token_ne_nil : minting.token aead serverId aad ≠ [] := by
  have decodes := Crypto.base64urlDecode_encode
    (0x01 :: aead.encrypt minting.nonce (minting.frame serverId) aad)
  intro empty
  rw [Minting.token] at empty
  rw [empty] at decodes
  cases decodes

/-- Under its own associated data a token is its frame. -/
theorem unsealToken_token : unsealToken aead.decrypt reader (minting.token aead serverId aad) aad
    unixNow = readFrame reader unixNow (minting.frame serverId) := by
  rw [unsealToken, if_neg (token_ne_nil aead minting), Minting.token,
    Crypto.base64urlDecode_encode]
  dsimp only
  rw [if_neg (not_or.mpr ⟨aead.encrypt_ne_nil _ _ _, not_not.mpr rfl⟩), aead.opens]
  rfl

/-- Under any other it is refused. -/
theorem unsealToken_foreign (foreign : other ≠ aad) :
    unsealToken aead.decrypt reader (minting.token aead serverId aad) other unixNow =
      .error .unsealable := by
  rw [unsealToken, if_neg (token_ne_nil aead minting), Minting.token,
    Crypto.base64urlDecode_encode]
  dsimp only
  rw [if_neg (not_or.mpr ⟨aead.encrypt_ne_nil _ _ _, not_not.mpr rfl⟩), aead.opensOnly _ _ _ _ foreign]

theorem frame_behind : (minting.frame serverId).drop 8 = UInt8.ofNat serverId.length :: (serverId ++
    (minting.id.text ++ Memory.toBytesLE 8 minting.expiresAt)) := by
  rw [Minting.frame, List.drop_left' (Memory.toBytesLE_length 8 _)]

/-- An id of at most 255 bytes is read back, and compared with the reader's. -/
theorem readFrame_short (short : serverId.length ≤ 255) :
    readFrame reader unixNow (minting.frame serverId) =
      if serverId ≠ reader then .error .wrongWorker
      else if unixNow > minting.expiresAt then .error .expired
      else .ok minting.id.text := by
  have length : (UInt8.ofNat serverId.length).toNat = serverId.length := by
    rw [UInt8.toNat_ofNat']
    omega
  have small : minting.expiresAt < 256 ^ 8 := by
    have created := minting.created
    have ttl := minting.ttlBound
    rw [Minting.expiresAt]
    omega
  have size : ¬(serverId ++ (minting.id.text ++ Memory.toBytesLE 8 minting.expiresAt)).length <
      serverId.length + 24 + 8 := by
    rw [List.length_append, List.length_append, minting.id.size, Memory.toBytesLE_length]
    omega
  have expiry : ((serverId ++ (minting.id.text ++ Memory.toBytesLE 8 minting.expiresAt)).drop
      (serverId.length + 24)).take 8 = Memory.toBytesLE 8 minting.expiresAt := by
    rw [← List.drop_drop, List.drop_left, List.drop_left' minting.id.size,
      List.take_of_length_le (Memory.toBytesLE_length 8 _).le]
  rw [readFrame, frame_behind]
  dsimp only
  rw [length, if_neg size, List.take_left, List.drop_left, List.take_left' minting.id.size, expiry,
    Memory.ofBytesLE_toBytesLE, Nat.mod_eq_of_lt small]

/-- A longer id is cut, and taken for another worker's. -/
theorem readFrame_long (long : 255 < serverId.length) :
    readFrame serverId unixNow (minting.frame serverId) = .error .wrongWorker := by
  have length : (UInt8.ofNat serverId.length).toNat < serverId.length :=
    Nat.lt_of_le_of_lt (Nat.le_of_lt_succ (UInt8.toNat_lt _)) long
  have size : ¬(serverId ++ (minting.id.text ++ Memory.toBytesLE 8 minting.expiresAt)).length <
      (UInt8.ofNat serverId.length).toNat + 24 + 8 := by
    rw [List.length_append, List.length_append, minting.id.size, Memory.toBytesLE_length]
    omega
  have cut : (serverId ++ (minting.id.text ++ Memory.toBytesLE 8 minting.expiresAt)).take
      (UInt8.ofNat serverId.length).toNat ≠ serverId := by
    intro same
    have lengths := congrArg List.length same
    rw [List.length_take, List.length_append] at lengths
    omega
  rw [readFrame, frame_behind]
  dsimp only
  rw [if_neg size, if_pos cut]

end Unseal

/-! ## Calls one after the other -/

/-- The entries of the registry; the address tells the objects apart. -/
structure Store where
  entries : List (Bytes × Entry)
  nextAddress : Nat

/-- A call, with the readings of the clocks that it makes. -/
inductive Operation where
  | opened (id : Bytes) (hasState : Bool) (expiresAt : Int)
  | resolve (token aad : Bytes) (steadyNow : Int) (unixNow : Nat)
  | close (token aad : Bytes) (unixNow : Nat)
  | sweep (steadyNow : Int)
  | shutdown

namespace Store

def erase (store : Store) (id : Bytes) : Store :=
  { store with entries := store.entries.filter fun item => item.1 ≠ id }

/-- `open` behind its token. -/
def opened (store : Store) (id : Bytes) (hasState : Bool) (expiresAt : Int) : Store :=
  ⟨(id, ⟨store.nextAddress, hasState, expiresAt⟩) :: (store.erase id).entries,
    store.nextAddress + 1⟩

/-- `resolve`: the session that a token names. -/
def resolve (aeadOpen : AeadOpen) (serverId : Bytes) (store : Store) (token aad : Bytes)
    (steadyNow : Int) (unixNow : Nat) : Except SessionLookup (Bytes × Entry) :=
  match unsealToken aeadOpen serverId token aad unixNow with
  | .error status => .error status
  | .ok id =>
      match store.entries.lookup id with
      | none => .error .missing
      | some entry => if steadyNow > entry.expiresAt then .error .expired else .ok (id, entry)

/-- The entries behind a call. -/
def apply (aeadOpen : AeadOpen) (serverId : Bytes) (store : Store) : Operation → Store
  | .opened id hasState expiresAt => store.opened id hasState expiresAt
  | .resolve token aad steadyNow unixNow =>
      match unsealToken aeadOpen serverId token aad unixNow with
      | .error _ => store
      | .ok id =>
          match store.entries.lookup id with
          | none => store
          | some entry => if steadyNow > entry.expiresAt then store.erase id else store
  | .close token aad unixNow =>
      match unsealToken aeadOpen serverId token aad unixNow with
      | .error _ => store
      | .ok id => store.erase id
  | .sweep steadyNow =>
      { store with entries := store.entries.filter fun item => ¬steadyNow > item.2.expiresAt }
  | .shutdown => { store with entries := [] }

end Store

/-- A call that comes before the end of a session: it draws another id, does not close it, and is
made before its expiry. -/
def Spares (aeadOpen : AeadOpen) (serverId id : Bytes) (expiresAt : Int) : Operation → Prop
  | .opened other _ _ => other ≠ id
  | .resolve _ _ steadyNow _ => steadyNow ≤ expiresAt
  | .close token aad unixNow => unsealToken aeadOpen serverId token aad unixNow ≠ .ok id
  | .sweep steadyNow => steadyNow ≤ expiresAt
  | .shutdown => False

section Store

variable {aeadOpen : AeadOpen} {serverId id : Bytes} {entry : Entry} {store : Store}

/-- A session that a filter keeps is still found. -/
theorem lookup_filter {keep : Bytes × Entry → Bool} (kept : keep (id, entry) = true)
    {entries : List (Bytes × Entry)} (found : entries.lookup id = some entry) :
    (entries.filter keep).lookup id = some entry := by
  induction entries with
  | nil => cases found
  | cons item rest inductionHypothesis =>
      obtain ⟨name, value⟩ := item
      by_cases same : id = name
      · subst same
        rw [List.lookup_cons_self, Option.some.injEq] at found
        subst found
        rw [List.filter_cons_of_pos kept, List.lookup_cons_self]
      · have differs : (id == name) = false := beq_eq_false_iff_ne.mpr same
        rw [List.lookup_cons, differs] at found
        by_cases keeps : keep (name, value) = true
        · rw [List.filter_cons_of_pos keeps, List.lookup_cons, differs]
          exact inductionHypothesis found
        · rw [List.filter_cons_of_neg keeps]
          exact inductionHypothesis found

theorem lookup_erase {other : Bytes} (differs : other ≠ id)
    (found : store.entries.lookup id = some entry) :
    (store.erase other).entries.lookup id = some entry := by
  apply lookup_filter _ found
  simpa using differs.symm

theorem lookup_opened {hasState : Bool} {expiresAt : Int} :
    (store.opened id hasState expiresAt).entries.lookup id =
      some ⟨store.nextAddress, hasState, expiresAt⟩ :=
  List.lookup_cons_self

/-- One call keeps the session. -/
theorem apply_spares {operation : Operation}
    (spares : Spares aeadOpen serverId id entry.expiresAt operation)
    (found : store.entries.lookup id = some entry) :
    (store.apply aeadOpen serverId operation).entries.lookup id = some entry := by
  cases operation with
  | opened other hasState expiresAt =>
      have differs : (id == other) = false := beq_eq_false_iff_ne.mpr (Ne.symm spares)
      rw [Store.apply, Store.opened, List.lookup_cons, differs]
      exact lookup_erase spares found
  | resolve token aad steadyNow unixNow =>
      rw [Store.apply]
      split
      · exact found
      · next other _ =>
          split
          · exact found
          · next candidate located =>
              split
              · next late =>
                  apply lookup_erase _ found
                  intro same
                  rw [same, found, Option.some.injEq] at located
                  rw [Spares] at spares
                  rw [← located] at late
                  omega
              · exact found
  | close token aad unixNow =>
      rw [Store.apply]
      split
      · exact found
      · next other unsealed =>
          apply lookup_erase _ found
          intro same
          rw [same] at unsealed
          exact spares unsealed
  | sweep steadyNow =>
      apply lookup_filter _ found
      rw [Spares] at spares
      simpa using spares
  | shutdown => exact spares.elim

/-- Any number of calls keep it. -/
theorem foldl_spares {operations : List Operation}
    (spares : ∀ operation ∈ operations, Spares aeadOpen serverId id entry.expiresAt operation)
    (found : store.entries.lookup id = some entry) :
    (operations.foldl (Store.apply aeadOpen serverId) store).entries.lookup id = some entry := by
  induction operations generalizing store with
  | nil => exact found
  | cons operation rest inductionHypothesis =>
      rw [List.forall_mem_cons] at spares
      exact inductionHypothesis spares.2 (apply_spares spares.1 found)

end Store

theorem frames_self {Thread : Type} [DecidableEq Thread] (state : State Thread) (thread : Thread)
    (frames : List Frame) : (state.setFrames thread frames).frames thread = frames :=
  (State.frames_setFrames state thread thread frames).trans (if_pos rfl)

/-- What `Store.resolve` decides, a thread of the registry decides step by step: the token is
unsealed, the entry found, its dispatch mutex taken, and the entry found again. -/
theorem resolve_steps {Thread : Type} [DecidableEq Thread] {aeadOpen : AeadOpen}
    {serverId token aad id : Bytes} {entry : Entry} {state : State Thread} {thread : Thread}
    {mutex : RecursiveMutex Thread} (running : state.Running thread)
    (available : (state.mutexes entry).lock thread = some mutex)
    (resolved : Store.resolve aeadOpen serverId ⟨state.entries, state.nextAddress⟩ token aad
      state.steadyNow state.unixNow = .ok (id, entry)) :
    ∃ found located locked final, Step aeadOpen serverId state none found ∧
      Step aeadOpen serverId found none located ∧ Step aeadOpen serverId located none locked ∧
      Step aeadOpen serverId locked (some (.resolved token id entry)) final ∧
      final.entries = state.entries := by
  rw [Store.resolve] at resolved
  split at resolved
  · cases resolved
  · next named unsealed =>
      split at resolved
      · cases resolved
      · next candidate present =>
          split at resolved
          · cases resolved
          · next early =>
              cases resolved
              refine ⟨_, _, _, _, .callBegin running unsealed,
                .findEntry (frames_self _ thread (.find _ token id :: state.frames thread)) present,
                .lock (frames_self _ thread (.lock _ token id entry :: state.frames thread))
                  available,
                .checkResolveKeep (frames_self _ thread
                  (.check (.resolve true) token id entry :: state.frames thread)) present
                  (Int.not_lt.mp early), rfl⟩

/-! ## What is minted is accepted -/

/-- The entry that `open` makes. -/
def Minting.entry (minting : Minting) (store : Store) (hasState : Bool) (steadyNow : Int) : Entry :=
  ⟨store.nextAddress, hasState, steadyNow + minting.ttl⟩

/-- The registry behind `open` and a number of further calls. -/
def Minting.later (minting : Minting) (aead : Aead) (serverId : Bytes) (store : Store)
    (hasState : Bool) (steadyNow : Int) (operations : List Operation) : Store :=
  operations.foldl (Store.apply aead.decrypt serverId)
    (store.opened minting.id.text hasState (steadyNow + minting.ttl))

/-- A registry accepts its own tokens until the session ends, and nobody else does. -/
structure AcceptsMinted (aead : Aead) (serverId : Bytes) : Prop where
  accepted : ∀ (minting : Minting) (aad : Bytes) (store : Store) (hasState : Bool)
    (steadyNow : Int) (operations : List Operation) (steadyThen : Int) (unixThen : Nat),
    (∀ operation ∈ operations, Spares aead.decrypt serverId minting.id.text
      (steadyNow + minting.ttl) operation) →
    steadyThen ≤ steadyNow + minting.ttl → unixThen ≤ minting.expiresAt →
    (minting.later aead serverId store hasState steadyNow operations).resolve aead.decrypt serverId
      (minting.token aead serverId aad) aad steadyThen unixThen =
        .ok (minting.id.text, minting.entry store hasState steadyNow)
  foreignData : ∀ (minting : Minting) (aad other reader : Bytes) (store : Store) (steadyThen : Int)
    (unixThen : Nat) (answer : Bytes × Entry), other ≠ aad →
    store.resolve aead.decrypt reader (minting.token aead serverId aad) other steadyThen unixThen ≠
      .ok answer
  foreignServer : ∀ (minting : Minting) (aad other reader : Bytes) (store : Store)
    (steadyThen : Int) (unixThen : Nat) (answer : Bytes × Entry), reader ≠ serverId →
    store.resolve aead.decrypt reader (minting.token aead serverId aad) other steadyThen unixThen ≠
      .ok answer

section Accepts

variable {aead : Aead} {serverId reader aad other : Bytes} {minting : Minting} {store : Store}
  {steadyNow : Int} {unixNow : Nat}

theorem resolve_refused {status : SessionLookup} {token : Bytes}
    (refused : unsealToken aead.decrypt reader token aad unixNow = .error status) :
    store.resolve aead.decrypt reader token aad steadyNow unixNow = .error status := by
  rw [Store.resolve, refused]

/-- Within the bound the token names its session until the session ends. -/
theorem resolve_minted (short : serverId.length ≤ 255) {hasState : Bool} {steadyThen : Int}
    {operations : List Operation}
    (spares : ∀ operation ∈ operations, Spares aead.decrypt serverId minting.id.text
      (steadyNow + minting.ttl) operation)
    (early : steadyThen ≤ steadyNow + minting.ttl) (fresh : unixNow ≤ minting.expiresAt) :
    (minting.later aead serverId store hasState steadyNow operations).resolve aead.decrypt serverId
      (minting.token aead serverId aad) aad steadyThen unixNow =
        .ok (minting.id.text, minting.entry store hasState steadyNow) := by
  have unsealed : unsealToken aead.decrypt serverId (minting.token aead serverId aad) aad unixNow =
      .ok minting.id.text := by
    rw [unsealToken_token, readFrame_short minting short, if_neg (not_not.mpr rfl),
      if_neg (Nat.not_lt.mpr fresh)]
  have found : (minting.later aead serverId store hasState steadyNow operations).entries.lookup
      minting.id.text = some (minting.entry store hasState steadyNow) :=
    foldl_spares spares lookup_opened
  rw [Store.resolve, unsealed]
  dsimp only
  rw [found]
  exact if_neg (Int.not_lt.mpr early)

/-- Another server that shares the key refuses it. -/
theorem resolve_elsewhere (short : serverId.length ≤ 255) (elsewhere : reader ≠ serverId)
    {answer : Bytes × Entry} :
    store.resolve aead.decrypt reader (minting.token aead serverId aad) other steadyNow unixNow ≠
      .ok answer := by
  by_cases own : other = aad
  · subst own
    have refused : unsealToken aead.decrypt reader (minting.token aead serverId other) other
        unixNow = .error .wrongWorker := by
      rw [unsealToken_token, readFrame_short minting short, if_pos elsewhere.symm]
    rw [resolve_refused refused]
    simp
  · rw [resolve_refused (unsealToken_foreign aead minting own)]
    simp

end Accepts

/-- The first session of a process. -/
def firstMinting : Minting where
  id := ⟨List.replicate 24 0x30, List.length_replicate⟩
  nonce := []
  createdAt := 0
  ttl := 300
  created := by decide
  positive := by decide
  ttlBound := by decide

/-- The length of the server's id goes into one byte of the frame: a registry accepts what it
minted if and only if its id fits. -/
theorem acceptsMinted_iff (aead : Aead) (serverId : Bytes) :
    AcceptsMinted aead serverId ↔ serverId.length ≤ 255 := by
  constructor
  · intro accepts
    by_contra long
    have refused : unsealToken aead.decrypt serverId (firstMinting.token aead serverId []) [] 0 =
        .error .wrongWorker := by
      rw [unsealToken_token, readFrame_long firstMinting (Nat.lt_of_not_le long)]
    have accepted := accepts.accepted firstMinting [] ⟨[], 0⟩ true 0 [] 0 0 (List.forall_mem_nil _) (by decide)
      (Nat.zero_le _)
    rw [resolve_refused refused] at accepted
    cases accepted
  · intro short
    constructor
    · intro minting aad store hasState steadyNow operations steadyThen unixThen spares early fresh
      exact resolve_minted short spares early fresh
    · intro minting aad other reader store steadyThen unixThen answer foreign
      rw [resolve_refused (unsealToken_foreign aead minting foreign)]
      simp
    · intro minting aad other reader store steadyThen unixThen answer elsewhere
      exact resolve_elsewhere short elsewhere

/-- An AEAD that carries the associated data in front of the text. -/
def carryingAead : Aead where
  encrypt _ frame aad := List.replicate aad.length 1 ++ 0 :: (aad ++ frame)
  decrypt sealed aad :=
    let size := (sealed.takeWhile (· == 1)).length
    let text := sealed.drop (size + 1)
    if text.take size = aad then some (text.drop size) else none
  encrypt_ne_nil := by
    intro nonce frame aad empty
    simp at empty
  opens := by
    intro nonce frame aad
    simp [List.drop_append]
  opensOnly := by
    intro nonce frame aad other foreign
    simp [List.drop_append, foreign.symm]

/-- A server with an id of 256 bytes refuses the first token it hands out. -/
theorem longId_refused :
    (firstMinting.later carryingAead (List.replicate 256 0x61) ⟨[], 0⟩ true 0 []).resolve
        carryingAead.decrypt (List.replicate 256 0x61)
        (firstMinting.token carryingAead (List.replicate 256 0x61) []) [] 0 0 =
      .error .wrongWorker ∧
      ¬AcceptsMinted carryingAead (List.replicate 256 0x61) := by
  have long : 255 < (List.replicate 256 (0x61 : UInt8)).length := by
    rw [List.length_replicate]
    decide
  have refused : unsealToken carryingAead.decrypt (List.replicate 256 0x61)
      (firstMinting.token carryingAead (List.replicate 256 0x61) []) [] 0 = .error .wrongWorker := by
    rw [unsealToken_token, readFrame_long firstMinting long]
  refine ⟨resolve_refused refused, ?_⟩
  intro accepts
  have accepted := accepts.accepted firstMinting [] ⟨[], 0⟩ true 0 [] 0 0 (List.forall_mem_nil _) (by decide)
    (Nat.zero_le _)
  rw [resolve_refused refused] at accepted
  cases accepted

end VgiRpc.Session
