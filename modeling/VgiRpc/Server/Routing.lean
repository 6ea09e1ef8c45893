import VgiRpc.Server.Gates

/-!
# Agreement of the two transports

A request for a protocol and a method resolves to the same method on the raw transport and on
HTTP, or is refused with the same error.
-/

namespace VgiRpc.Server

open VgiRpc.Cpp VgiRpc.Wire

variable {Columns : Type}

/-! ## The ladder of the raw transport -/

/-- What a dispatch is, of a request that resolves so. -/
def DispatchesTo (dispatch : Raw.Dispatch) (isPointer : Bool) (resolved : Option Columns)
    (columns : Columns) : Except ErrorFace (Resolved Columns) → Prop
  | .error face => ∃ reason, dispatch = .refused reason ∧ refusalFace reason = face
  | .ok (.framework _) => dispatch = .framework
  | .ok .uploadUrl => False
  | .ok (.method _ info) => dispatch = afterLookup isPointer resolved columns info

/-- `dispatch` is the resolution, and behind it the parameters. -/
theorem dispatch_resolveRaw (server : Raw.Server Columns) (resolved : Option Columns)
    (batch : Raw.Batch Columns) :
    DispatchesTo (server.dispatch resolved batch) (Raw.Server.isShmPointer batch) resolved
      batch.columns (resolveRaw server batch.metadata) := by
  unfold resolveRaw Raw.Server.dispatch
  dsimp only
  by_cases noMethod : batch.metadata.value Keys.method = []
  · rw [if_pos noMethod, if_pos noMethod]
    exact ⟨_, rfl, rfl⟩
  rw [if_neg noMethod, if_neg noMethod]
  by_cases noVersion : batch.metadata.value Keys.requestVersion = []
  · rw [if_pos noVersion, if_pos (by rw [noVersion]; exact (List.cons_ne_nil _ _).symm)]
    exact ⟨_, rfl, rfl⟩
  rw [if_neg noVersion]
  by_cases otherVersion : batch.metadata.value Keys.requestVersion ≠ ascii "1"
  · rw [if_pos otherVersion, if_pos otherVersion]
    exact ⟨_, rfl, rfl⟩
  rw [if_neg otherVersion, if_neg otherVersion, Http.kReflectionProtocolName,
    Http.kIdentityProtocolName]
  by_cases framework : batch.metadata.value Keys.protocol = ascii "vgi_rpc.Reflection.v1" ∨
      batch.metadata.value Keys.protocol = ascii "vgi_rpc.Identity.v2"
  · rw [if_pos framework, if_pos framework]
    rfl
  rw [if_neg framework, if_neg framework]
  cases server.target (batch.metadata.value Keys.method) batch.metadata with
  | error reason => exact ⟨reason, rfl, rfl⟩
  | ok target =>
      dsimp only
      by_cases mismatch : (ascii "__").isPrefixOf (batch.metadata.value Keys.method) = false ∧
          Raw.protocolVersionError target batch.metadata
      · rw [if_pos mismatch, if_pos mismatch]
        exact ⟨_, rfl, rfl⟩
      rw [if_neg mismatch, if_neg mismatch, lookupMethod]
      cases target.methods.lookup (batch.metadata.value Keys.method) with
      | none =>
          refine ⟨_, rfl, ?_⟩
          split <;> rfl
      | some info => rfl

/-! ## Targets -/

/-- A method name that is one segment of a target. -/
structure Segment (method : Bytes) : Prop where
  nonempty : method ≠ []
  slash : (0x2f : UInt8) ∉ method
  query : (0x3f : UInt8) ∉ method

/-- A protocol name of the grammar, which is neither of the form of a reserved method nor the
name of a protocol of the framework. -/
structure ApplicationName (protocol : Bytes) : Prop where
  grammar : Http.isProtocolName protocol = true
  notReserved : Http.isReservedMethod protocol = false
  notReflection : protocol ≠ Http.kReflectionProtocolName
  notIdentity : protocol ≠ Http.kIdentityProtocolName

/-- A request of this version for a protocol and a method. -/
structure Asks (metadata : Metadata) (protocol method : Bytes) : Prop where
  protocol : metadata.value Keys.protocol = protocol
  method : metadata.value Keys.method = method
  version : metadata.value Keys.requestVersion = ascii "1"

/-- The target of a method, with the endpoint that opens a stream. -/
def methodTarget (protocol method : Bytes) (isInit : Bool) : Bytes :=
  protocol ++ 0x2f :: (method ++ if isInit then ascii "/init" else [])

theorem takeSuffix_init (isInit : Bool) :
    Http.takeSuffix (if isInit then [ascii "init"] else []) = some (isInit, false) := by
  cases isInit <;> rfl

theorem splitPath_methodTarget {protocol method : Bytes} (clean : (0x2f : UInt8) ∉ protocol)
    (segment : Segment method) (isInit : Bool) :
    Http.splitPath (methodTarget protocol method isInit) =
      protocol :: method :: if isInit then [ascii "init"] else [] := by
  rw [Http.splitPath, methodTarget, List.splitOn_append_cons_self_of_not_mem clean]
  cases isInit with
  | false =>
      rw [if_neg Bool.false_ne_true, if_neg Bool.false_ne_true, List.append_nil,
        List.splitOn_eq_singleton segment.slash]
  | true =>
      change protocol :: (method ++ 0x2f :: ascii "init").splitOn 0x2f = _
      rw [List.splitOn_append_cons_self_of_not_mem segment.slash]
      rfl

theorem rawTargetPath_eq_self {target : Bytes} (clean : (0x3f : UInt8) ∉ target) :
    rawTargetPath target = target := by
  apply List.takeWhile_eq_self_iff.mpr
  intro byte listed
  exact bne_iff_ne.mpr fun same => clean (same ▸ listed)

theorem rawTargetPath_methodTarget {protocol method : Bytes}
    (clean : (0x3f : UInt8) ∉ protocol) (segment : Segment method) (isInit : Bool) :
    rawTargetPath (methodTarget protocol method isInit) = methodTarget protocol method isInit := by
  have absent : (0x3f : UInt8) ∉ methodTarget protocol method isInit := by
    rw [methodTarget, List.mem_append, List.mem_cons, List.mem_append]
    rintro (listed | slash | listed | listed)
    · exact clean listed
    · exact absurd slash (by decide)
    · exact segment.query listed
    · cases isInit with
      | false => exact absurd listed List.not_mem_nil
      | true => exact absurd listed (by decide)
  exact rawTargetPath_eq_self absent

theorem not_mem_protocolName {name : Bytes} (valid : Http.isProtocolName name = true) {byte : UInt8}
    (other : Http.isProtocolByte byte = false) : byte ∉ name := by
  intro listed
  rw [Http.isProtocolByte_of_mem valid listed] at other
  exact Bool.noConfusion other

/-- Where a method of a grammatical name is routed to. -/
theorem routePath_methodTarget (hosting : Http.Hosting) {protocol method : Bytes}
    (application : ApplicationName protocol) (segment : Segment method) (isInit : Bool) :
    Http.routePath hosting (rawTargetPath (methodTarget protocol method isInit)) =
      if hosting.hosts protocol then ⟨.none, .application, protocol, method, isInit, false⟩
      else ⟨.protocolNotSupported, .reserved, protocol, method, isInit, false⟩ := by
  have slash := not_mem_protocolName application.grammar (rfl : Http.isProtocolByte 0x2f = false)
  have query := not_mem_protocolName application.grammar (rfl : Http.isProtocolByte 0x3f = false)
  have percent := not_mem_protocolName application.grammar (rfl : Http.isProtocolByte 0x25 = false)
  have nonempty : protocol ≠ [] := by
    rintro rfl
    exact absurd application.grammar (by decide)
  rw [rawTargetPath_methodTarget query segment, Http.routePath, splitPath_methodTarget slash segment]
  simp only [if_neg nonempty, application.notReserved, Bool.false_eq_true, if_false,
    if_neg segment.nonempty, if_neg percent, application.grammar, Bool.true_eq_false,
    takeSuffix_init, if_neg application.notReflection, application.notIdentity, false_and]

/-! ## Application methods -/

variable {server : BuiltServer Columns} {metadata : Metadata} {protocol method : Bytes}

theorem application_prefixed (application : Protocol.isApplicationMethod method = true) :
    (ascii "__").isPrefixOf method = false := by
  rwa [Protocol.isApplicationMethod, Bool.not_eq_true'] at application

theorem resolveRaw_asks (asks : Asks metadata protocol method) (nonempty : method ≠ [])
    (notReflection : protocol ≠ Http.kReflectionProtocolName)
    (notIdentity : protocol ≠ Http.kIdentityProtocolName) (raw : Raw.Server Columns) :
    resolveRaw raw metadata =
      match raw.target method metadata with
      | .error reason => .error (refusalFace reason)
      | .ok target =>
          if (ascii "__").isPrefixOf method = false ∧ Raw.protocolVersionError target metadata then
            .error .versionMismatch
          else lookupMethod target method := by
  rw [resolveRaw, asks.method, asks.version, asks.protocol]
  have application : ¬(protocol = Http.kReflectionProtocolName ∨ protocol = Http.kIdentityProtocolName) :=
    not_or.mpr ⟨notReflection, notIdentity⟩
  exact (if_neg nonempty).trans ((if_neg (not_not.mpr rfl)).trans (if_neg application))

/-- What an application method resolves to on the raw transport. -/
theorem resolveRaw_application (named : server.primary.name ≠ [])
    (asks : Asks metadata protocol method) (hosted : ApplicationName protocol)
    (nonempty : method ≠ []) (application : Protocol.isApplicationMethod method = true) :
    resolveRaw server.served metadata =
      match server.served.findProtocol protocol with
      | none => .error .protocolNotSupported
      | some target =>
          if Raw.protocolVersionError target metadata then .error .versionMismatch
          else lookupMethod target method := by
  have appPrefix := application_prefixed application
  have nonemptyName : protocol ≠ [] := by
    rintro rfl
    exact absurd hosted.grammar (by decide)
  have primaryNamed : server.served.primary.name ≠ [] := named
  rw [resolveRaw_asks asks nonempty hosted.notReflection hosted.notIdentity, Raw.Server.target,
    if_pos ⟨appPrefix, primaryNamed⟩, asks.protocol, if_neg nonemptyName]
  cases server.served.findProtocol protocol with
  | none => rfl
  | some target => simp only [appPrefix, true_and]

/-- What it resolves to on HTTP. -/
theorem resolveHttp_application (asks : Asks metadata protocol method)
    (hosted : ApplicationName protocol) (segment : Segment method)
    (application : Protocol.isApplicationMethod method = true) (isInit : Bool) :
    resolveHttp server (methodTarget protocol method isInit) metadata =
      match server.served.findProtocol protocol with
      | none => .error .protocolNotSupported
      | some target =>
          if Raw.protocolVersionError target metadata then .error .versionMismatch
          else lookupMethod target method := by
  have notUpload : method ≠ ascii "__upload_url__" := by
    rintro rfl
    exact absurd application (by decide)
  rw [resolveHttp, routePath_methodTarget (hosting server) hosted segment isInit]
  cases found : server.served.findProtocol protocol with
  | none => simp only [hosting, found, Option.isSome_none, Bool.false_eq_true, if_false]
  | some target =>
      have agreed : keysDisagree ⟨.none, .application, protocol, method, isInit, false⟩ metadata =
          false := by
        rw [keysDisagree, asks.protocol]
        simp
      have routed : routedProtocol server ⟨.none, .application, protocol, method, isInit, false⟩ =
          target := by
        rw [routedProtocol, found, Option.getD_some]
      simp only [hosting, found, Option.isSome_some, if_true, agreed, checkInitial, asks.method,
        asks.version, routed, resolveRouted, application, notUpload]
      by_cases mismatch : Raw.protocolVersionError target metadata = true
      · simp [mismatch, bind, Except.bind]
      · simp [mismatch, bind, Except.bind]

/-- An application method resolves to the same on both transports. -/
theorem application_agrees (named : server.primary.name ≠ [])
    (asks : Asks metadata protocol method) (hosted : ApplicationName protocol)
    (segment : Segment method) (application : Protocol.isApplicationMethod method = true)
    (isInit : Bool) :
    resolveHttp server (methodTarget protocol method isInit) metadata =
      resolveRaw server.served metadata := by
  rw [resolveHttp_application asks hosted segment application,
    resolveRaw_application named asks hosted segment.nonempty application]

/-! ## Reserved methods and protocols of the framework -/

/-- A route to no application protocol passes by the version gate. -/
theorem resolveHttp_exempt {target : Bytes} {routed : Http.RoutedRequest}
    (asks : Asks metadata protocol routed.method)
    (found : Http.routePath (hosting server) (rawTargetPath target) = routed)
    (valid : routed.error = .none) (agreed : keysDisagree routed metadata = false)
    (other : routed.target ≠ .application) :
    resolveHttp server target metadata = resolveRouted server routed := by
  have passes : checkInitial server routed metadata = .ok () := by
    simp only [checkInitial, asks.method, asks.version, other, ne_eq, not_true_eq_false, false_and,
      if_false, ite_self]
  rw [resolveHttp, found, valid]
  dsimp only
  rw [if_neg (Bool.not_eq_true _ ▸ agreed), passes]
  rfl

theorem reserved_prefix (reserved : Http.isReservedMethod method = true) :
    (ascii "__").isPrefixOf method = true := by
  rw [Http.isReservedMethod, Bool.and_eq_true, Bool.and_eq_true, beq_iff_eq] at reserved
  rw [List.isPrefixOf_iff_prefix]
  exact ⟨method.drop 2, by rw [← reserved.1.2, List.take_append_drop]⟩

/-- A reserved method is looked up in the primary on both transports, whatever its request names
and whatever version it declares. -/
theorem reserved_agrees (asks : Asks metadata protocol method)
    (notReflection : protocol ≠ Http.kReflectionProtocolName)
    (notIdentity : protocol ≠ Http.kIdentityProtocolName) (segment : Segment method)
    (reserved : Http.isReservedMethod method = true) :
    resolveHttp server method metadata = lookupMethod server.served.primary method ∧
      resolveRaw server.served metadata = lookupMethod server.served.primary method := by
  have appPrefix := reserved_prefix reserved
  constructor
  · have routed : Http.routePath (hosting server) (rawTargetPath method) =
        ⟨.none, .reserved, [], method, false, false⟩ := by
      rw [rawTargetPath_eq_self segment.query, Http.routePath, Http.splitPath,
        List.splitOn_eq_singleton segment.slash]
      simp only [if_neg segment.nonempty, reserved, if_true, Http.takeSuffix]
    have notApplication : Protocol.isApplicationMethod method =
        decide (Http.RouteTarget.reserved = .application) := by
      rw [Protocol.isApplicationMethod, appPrefix]
      rfl
    rw [resolveHttp_exempt asks routed rfl rfl nofun, resolveRouted]
    rw [if_neg (not_or.mpr ⟨nofun, nofun⟩), if_neg fun upload => Bool.false_ne_true upload.2,
      if_pos notApplication]
    rfl
  · rw [resolveRaw_asks asks segment.nonempty notReflection notIdentity, Raw.Server.target,
      if_neg (by rw [appPrefix]; simp)]
    simp only [appPrefix, Bool.true_eq_false, false_and, if_false]

/-- A protocol that the framework hosts, and a method that it offers. -/
inductive Offers (server : BuiltServer Columns) : Bytes → Bytes → Prop where
  | reflection {method : Bytes} (offered : method ∈ offeredMethods server .reflection) :
      Offers server Http.kReflectionProtocolName method
  | identity {method : Bytes} {methods : List Bytes} (hosted : server.identity = some methods)
      (offered : method ∈ methods) : Offers server Http.kIdentityProtocolName method

/-- The routes of the framework's protocols. -/
theorem resolveHttp_framework {target : Http.RouteTarget} (asks : Asks metadata protocol method)
    (framework : target = .reflection ∨ target = .identity)
    (routed : Http.routePath (hosting server)
      (rawTargetPath (methodTarget protocol method false)) =
        ⟨.none, target, protocol, method, false, false⟩)
    (offered : method ∈ offeredMethods server target) :
    resolveHttp server (methodTarget protocol method false) metadata =
      .ok (.framework protocol) := by
  have agreed : keysDisagree ⟨.none, target, protocol, method, false, false⟩ metadata = false := by
    rw [keysDisagree, asks.protocol, decide_eq_false (not_not.mpr rfl : ¬protocol ≠ protocol),
      Bool.and_false]
  have other : target ≠ .application := by
    rcases framework with rfl | rfl <;> decide
  rw [resolveHttp_exempt asks routed rfl agreed other, resolveRouted, if_pos framework]
  exact if_neg fun refused =>
    refused.elim (fun missing => missing offered) (Or.rec Bool.false_ne_true Bool.false_ne_true)

/-- A protocol of the framework is reached on both transports, without the version gate. -/
theorem framework_agrees (asks : Asks metadata protocol method) (segment : Segment method)
    (offers : Offers server protocol method) :
    resolveHttp server (methodTarget protocol method false) metadata = .ok (.framework protocol) ∧
      resolveRaw server.served metadata = .ok (.framework protocol) := by
  have raw : (protocol = Http.kReflectionProtocolName ∨ protocol = Http.kIdentityProtocolName) →
      resolveRaw server.served metadata = .ok (.framework protocol) := by
    intro names
    rw [resolveRaw, asks.method, asks.version, asks.protocol]
    rw [if_neg segment.nonempty, if_neg (not_not.mpr rfl), if_pos names]
  cases offers with
  | reflection offered =>
      refine ⟨resolveHttp_framework asks (.inl rfl) ?_ offered, raw (.inl rfl)⟩
      rw [rawTargetPath_methodTarget (by decide) segment, Http.routePath,
        splitPath_methodTarget (by decide) segment]
      simp only [if_neg segment.nonempty]
      rfl
  | identity hosted offered =>
      refine ⟨resolveHttp_framework asks (.inr rfl) ?_ ?_, raw (.inr rfl)⟩
      · rw [rawTargetPath_methodTarget (by decide) segment, Http.routePath,
          splitPath_methodTarget (by decide) segment]
        simp only [if_neg segment.nonempty, hosting, hosted, Option.isSome_some]
        rfl
      · change method ∈ server.identity.getD []
        rw [hosted]
        exact offered

/-! ## Isolation -/

section Isolation

variable {target : Raw.ServedProtocol Columns} {info : Raw.MethodInfo Columns}

theorem lookupMethod_ok {served : Raw.ServedProtocol Columns} :
    lookupMethod served method = .ok (.method target info) ↔
      served = target ∧ served.methods.lookup method = some info := by
  unfold lookupMethod
  split
  next missing => simp [missing]
  next found =>
      rw [found, Except.ok.injEq, Resolved.method.injEq, Option.some_inj]

theorem findProtocol_name {name : Bytes} (found : server.served.findProtocol name = some target) :
    target.name = name := by
  have matched := List.find?_some found
  rw [decide_eq_true_iff] at matched
  exact matched.2

/-- An application method that the raw transport resolves is of the protocol that was named. -/
theorem resolveRaw_isolated (named : server.primary.name ≠ [])
    (resolves : resolveRaw server.served metadata = .ok (.method target info))
    (application : Protocol.isApplicationMethod (metadata.value Keys.method) = true) :
    target.name = metadata.value Keys.protocol := by
  have primaryNamed : server.served.primary.name ≠ [] := named
  rw [resolveRaw] at resolves
  split at resolves
  next => cases resolves
  split at resolves
  next => cases resolves
  split at resolves
  next => cases resolves
  rw [Raw.Server.target, if_pos ⟨application_prefixed application, primaryNamed⟩] at resolves
  split at resolves
  next => cases resolves
  next target' targeted =>
      split at targeted
      next => cases targeted
      split at targeted
      next => cases targeted
      next protocol' found =>
          cases targeted
          split at resolves
          next => cases resolves
          next =>
              rw [← (lookupMethod_ok.mp resolves).1]
              exact findProtocol_name found

/-- A route to an application protocol is to one that is hosted. -/
theorem routePath_hosted (hosting : Http.Hosting) (path : Bytes) :
    (Http.routePath hosting path).target = .application →
      hosting.hosts (Http.routePath hosting path).protocol = true := by
  unfold Http.routePath
  split
  next => exact nofun
  next first rest shape =>
      split
      next => exact nofun
      split
      next => split <;> exact nofun
      split
      next => exact nofun
      next method suffix =>
          split
          next => exact nofun
          split
          next => exact nofun
          split
          next => exact nofun
          split
          next => exact nofun
          next =>
              split
              next => exact nofun
              split
              next => exact nofun
              split
              next hosted => exact fun _ => hosted
              next => exact nofun

/-- A method is looked up where its kind belongs. -/
theorem resolveRouted_method {routed : Http.RoutedRequest}
    (resolves : resolveRouted server routed = .ok (.method target info))
    (application : Protocol.isApplicationMethod routed.method = true) :
    routed.target = .application ∧
      lookupMethod (routedProtocol server routed) routed.method = .ok (.method target info) := by
  unfold resolveRouted at resolves
  split at resolves
  next => split at resolves <;> cases resolves
  split at resolves
  next => cases resolves
  split at resolves
  next kind =>
      rw [application] at kind
      exact ⟨of_decide_eq_true kind.symm, resolves⟩
  next => cases resolves

/-- An application method that HTTP resolves is of the protocol in the path, and of the one that
was named. -/
theorem resolveHttp_isolated {path : Bytes} {routed : Http.RoutedRequest}
    (resolves : resolveHttp server path metadata = .ok (.method target info))
    (found : Http.routePath (hosting server) (rawTargetPath path) = routed)
    (application : Protocol.isApplicationMethod routed.method = true) :
    target.name = routed.protocol ∧
      (metadata.value Keys.protocol = [] ∨ metadata.value Keys.protocol = target.name) := by
  rw [resolveHttp, found] at resolves
  split at resolves
  next => cases resolves
  next => cases resolves
  split at resolves
  next => cases resolves
  next agreed =>
      cases passed : checkInitial server routed metadata with
      | error error =>
          rw [passed] at resolves
          cases resolves
      | ok done =>
          rw [passed] at resolves
          rcases resolveRouted_method resolves application with ⟨isApplication, looked⟩
          have hosted := routePath_hosted (hosting server) (rawTargetPath path)
          rw [found] at hosted
          rcases Option.isSome_iff_exists.mp (hosted isApplication) with ⟨served, isServed⟩
          rw [routedProtocol, isApplication] at looked
          dsimp only at looked
          rw [isServed, Option.getD_some] at looked
          have name := findProtocol_name isServed
          rw [(lookupMethod_ok.mp looked).1] at name
          refine ⟨name, ?_⟩
          by_contra other
          rw [not_or, name] at other
          exact agreed (by simp [keysDisagree, isApplication, other.1, other.2])

end Isolation

/-! ## Built servers -/

section Built

variable {builder : ServerBuilder Columns} {hosted : ProtocolBuilder Columns}

theorem checkName_ok {names names' : List Bytes} {name : Bytes}
    (checks : checkName names name = .ok names') :
    names' = name :: names ∧ name ∉ names ∧ Http.isProtocolName name = true ∧
      kReservedProtocolPrefix.isPrefixOf name = false := by
  unfold checkName at checks
  split at checks
  next => cases checks
  next unreserved =>
      split at checks
      next => cases checks
      next valid =>
          split at checks
          next => cases checks
          next fresh =>
              cases checks
              exact ⟨rfl, fresh, by rwa [Bool.not_eq_false] at valid,
                Bool.not_eq_true _ ▸ unreserved⟩

/-- The names that pass one check after another. -/
theorem checkNames_fold {extras : List (ProtocolBuilder Columns)} {names names' : List Bytes}
    (checks : extras.foldlM (fun names extra => checkName names extra.name) names = .ok names') :
    (names.Nodup → (names ++ extras.map ProtocolBuilder.name).Nodup) ∧
      ∀ extra ∈ extras, Http.isProtocolName extra.name = true ∧
        kReservedProtocolPrefix.isPrefixOf extra.name = false := by
  induction extras generalizing names with
  | nil =>
      refine ⟨fun distinct => by rwa [List.map_nil, List.append_nil], ?_⟩
      exact fun _ listed => absurd listed List.not_mem_nil
  | cons extra extras ih =>
      rw [List.foldlM_cons] at checks
      cases checked : checkName names extra.name with
      | error error =>
          rw [checked] at checks
          cases checks
      | ok taken =>
          rw [checked] at checks
          rcases checkName_ok checked with ⟨rfl, fresh, valid, unreserved⟩
          rcases ih checks with ⟨distinct, every⟩
          refine ⟨?_, List.forall_mem_cons.mpr ⟨⟨valid, unreserved⟩, every⟩⟩
          intro old
          have all := distinct (List.nodup_cons.mpr ⟨fresh, old⟩)
          rw [List.map_cons]
          exact List.nodup_middle.mpr all

/-- The protocols of a server whose primary has a name. -/
theorem build_ok (built : build builder = .ok server) (named : server.primary.name ≠ []) :
    (server.protocols.map ProtocolBuilder.name).Nodup ∧
      ∀ hosted ∈ server.protocols, Http.isProtocolName hosted.name = true ∧
        kReservedProtocolPrefix.isPrefixOf hosted.name = false := by
  rw [build] at built
  cases checked : checkNames builder with
  | error error =>
      rw [checked] at built
      cases built
  | ok names =>
      rw [checked] at built
      have shape : server.primary.name = builder.primary.name ∧
          server.others = builder.extraProtocols := by
        dsimp only [bind, Except.bind] at built
        split at built
        next => cases built
        next =>
            cases built
            cases builder.transportOptions with
            | none => exact ⟨rfl, rfl⟩
            | some acceptsParams => exact ⟨rfl, rfl⟩
      rw [shape.1] at named
      rw [checkNames, if_neg named] at checked
      cases primaryChecked : checkName [] builder.primary.name with
      | error error =>
          rw [primaryChecked] at checked
          cases checked
      | ok taken =>
          rw [primaryChecked] at checked
          change (if _ then _ else _) = _ at checked
          rw [if_neg fun unnamed => named unnamed.2] at checked
          rcases checkName_ok primaryChecked with ⟨rfl, -, valid, unreserved⟩
          rcases checkNames_fold checked with ⟨distinct, every⟩
          rw [BuiltServer.protocols, List.map_cons, shape.1, shape.2]
          refine ⟨distinct (List.nodup_singleton _), ?_⟩
          intro hosted listed
          rcases List.mem_cons.mp listed with rfl | listed
          · rw [shape.1]
            exact ⟨valid, unreserved⟩
          · exact every hosted listed

/-- A protocol is found under its name. -/
theorem find_served {protocols : List (ProtocolBuilder Columns)}
    (distinct : (protocols.map ProtocolBuilder.name).Nodup) (listed : hosted ∈ protocols)
    (nonempty : hosted.name ≠ []) :
    (protocols.map ProtocolBuilder.served).find?
      (fun protocol => decide (protocol.name ≠ [] ∧ protocol.name = hosted.name)) =
        some hosted.served := by
  induction protocols with
  | nil => exact absurd listed List.not_mem_nil
  | cons first protocols ih =>
      rw [List.map_cons, List.nodup_cons] at distinct
      rcases List.mem_cons.mp listed with rfl | later
      · rw [List.map_cons]
        exact List.find?_cons_of_pos
          (decide_eq_true (⟨nonempty, rfl⟩ : hosted.served.name ≠ [] ∧ _ = hosted.name))
      · have other : first.name ≠ hosted.name := by
          intro same
          exact distinct.1 (same ▸ List.mem_map_of_mem later)
        rw [List.map_cons, List.find?_cons_of_neg]
        · exact ih distinct.2 later
        · exact fun same => other (of_decide_eq_true same).2

theorem findProtocol_hosted (built : build builder = .ok server) (named : server.primary.name ≠ [])
    (listed : hosted ∈ server.protocols) :
    server.served.findProtocol hosted.name = some hosted.served := by
  rcases build_ok built named with ⟨distinct, valid⟩
  have nonempty : hosted.name ≠ [] := by
    intro empty
    have grammar := (valid hosted listed).1
    rw [empty] at grammar
    exact Bool.false_ne_true grammar
  exact find_served distinct listed nonempty

/-- The described methods are the application methods that were registered. -/
theorem mem_describedMethods : method ∈ hosted.describedMethods ↔
    Protocol.isApplicationMethod method = true ∧ method ∈ hosted.methods.map Registered.name := by
  rw [ProtocolBuilder.describedMethods, Protocol.ordered, Protocol.applicationMethods,
    ((List.mergeSort_perm _ _).map _).mem_iff]
  constructor
  · intro listed
    rcases List.mem_map.mp listed with ⟨info, inFilter, rfl⟩
    rcases List.mem_filter.mp inFilter with ⟨registered, application⟩
    rcases List.mem_map.mp registered with ⟨entry, member, rfl⟩
    exact ⟨application, List.mem_map.mpr ⟨entry, member, rfl⟩⟩
  · rintro ⟨application, listed⟩
    rcases List.mem_map.mp listed with ⟨entry, member, rfl⟩
    exact List.mem_map.mpr ⟨entry.info,
      List.mem_filter.mpr ⟨List.mem_map.mpr ⟨entry, member, rfl⟩, application⟩, rfl⟩

theorem lookupMethod_registered :
    (∃ info, lookupMethod hosted.served method = .ok (.method hosted.served info)) ↔
      method ∈ hosted.methods.map Registered.name := by
  have entries : hosted.served.methods.lookup method = none ↔
      method ∉ hosted.methods.map Registered.name := by
    rw [List.lookup_eq_none_iff, ProtocolBuilder.served]
    constructor
    · intro other listed
      rcases List.mem_map.mp listed with ⟨entry, member, rfl⟩
      have differs := other entry.entry (List.mem_map_of_mem member)
      exact bne_iff_ne.mp differs rfl
    · intro absent pair listed
      rcases List.mem_map.mp listed with ⟨entry, member, rfl⟩
      exact bne_iff_ne.mpr fun same => absent (List.mem_map.mpr ⟨entry, member, same.symm⟩)
  unfold lookupMethod
  cases found : hosted.served.methods.lookup method with
  | none => simp [entries.mp found]
  | some info =>
      have present : method ∈ hosted.methods.map Registered.name := by
        by_contra absent
        rw [entries.mpr absent] at found
        cases found
      exact ⟨fun _ => present, fun _ => ⟨info, rfl⟩⟩

theorem applicationName_hosted (built : build builder = .ok server)
    (named : server.primary.name ≠ []) (listed : hosted ∈ server.protocols)
    (notReserved : Http.isReservedMethod hosted.name = false) : ApplicationName hosted.name := by
  rcases (build_ok built named).2 hosted listed with ⟨grammar, unreserved⟩
  refine ⟨grammar, notReserved, ?_, ?_⟩
  · intro same
    rw [same] at unreserved
    exact absurd unreserved (by decide)
  · intro same
    rw [same] at unreserved
    exact absurd unreserved (by decide)

/-- What a request of an accepted version resolves to under its own protocol. -/
theorem resolveRaw_hosted (built : build builder = .ok server) (named : server.primary.name ≠ [])
    (listed : hosted ∈ server.protocols) (asks : Asks metadata hosted.name method)
    (notReserved : Http.isReservedMethod hosted.name = false) (nonempty : method ≠ [])
    (application : Protocol.isApplicationMethod method = true)
    (accepted : Raw.protocolVersionError hosted.served metadata = false) :
    resolveRaw server.served metadata = lookupMethod hosted.served method := by
  rw [resolveRaw_application named asks
    (applicationName_hosted built named listed notReserved) nonempty application,
    findProtocol_hosted built named listed]
  dsimp only
  rw [if_neg (Bool.not_eq_true _ ▸ accepted)]

/-- A method is described if and only if it can be called. -/
theorem described_iff_callable (built : build builder = .ok server)
    (named : server.primary.name ≠ []) (listed : hosted ∈ server.protocols)
    (asks : Asks metadata hosted.name method)
    (notReserved : Http.isReservedMethod hosted.name = false) (nonempty : method ≠ [])
    (accepted : Raw.protocolVersionError hosted.served metadata = false) :
    method ∈ hosted.describedMethods ↔ Protocol.isApplicationMethod method = true ∧
      ∃ info, resolveRaw server.served metadata = .ok (.method hosted.served info) := by
  rw [mem_describedMethods]
  apply and_congr_right
  intro application
  rw [resolveRaw_hosted built named listed asks notReserved nonempty application accepted,
    lookupMethod_registered]

/-- Requests are routed alike on both transports, to the methods that are described and to no
other protocol. -/
theorem routing_agrees (built : build builder = .ok server) (named : server.primary.name ≠ []) :
    (∀ protocol method metadata isInit, Asks metadata protocol method →
      ApplicationName protocol → Segment method → Protocol.isApplicationMethod method = true →
        resolveHttp server (methodTarget protocol method isInit) metadata =
          resolveRaw server.served metadata) ∧
      (∀ protocol method metadata, Asks metadata protocol method →
        protocol ≠ Http.kReflectionProtocolName → protocol ≠ Http.kIdentityProtocolName →
          Segment method → Http.isReservedMethod method = true →
            resolveHttp server method metadata = lookupMethod server.served.primary method ∧
            resolveRaw server.served metadata = lookupMethod server.served.primary method) ∧
      (∀ protocol method metadata, Asks metadata protocol method → Segment method →
        Offers server protocol method →
          resolveHttp server (methodTarget protocol method false) metadata =
            .ok (.framework protocol) ∧
          resolveRaw server.served metadata = .ok (.framework protocol)) ∧
      (∀ hosted ∈ server.protocols, Http.isReservedMethod hosted.name = false →
        ∀ method metadata isInit, Asks metadata hosted.name method → Segment method →
          Raw.protocolVersionError hosted.served metadata = false →
            (method ∈ hosted.describedMethods ↔ Protocol.isApplicationMethod method = true ∧
              ∃ info, resolveRaw server.served metadata = .ok (.method hosted.served info)) ∧
            (method ∈ hosted.describedMethods ↔ Protocol.isApplicationMethod method = true ∧
              ∃ info, resolveHttp server (methodTarget hosted.name method isInit) metadata =
                .ok (.method hosted.served info))) ∧
      (∀ metadata target info, resolveRaw server.served metadata = .ok (.method target info) →
        Protocol.isApplicationMethod (metadata.value Keys.method) = true →
          target.name = metadata.value Keys.protocol) ∧
      (∀ path routed metadata target info,
        resolveHttp server path metadata = .ok (.method target info) →
          Http.routePath (hosting server) (rawTargetPath path) = routed →
            Protocol.isApplicationMethod routed.method = true →
              target.name = routed.protocol ∧
              (metadata.value Keys.protocol = [] ∨
                metadata.value Keys.protocol = target.name)) := by
  refine ⟨?_, ?_, ?_, ?_, ?_, ?_⟩
  · intro protocol method metadata isInit asks hosted segment application
    exact application_agrees named asks hosted segment application isInit
  · intro protocol method metadata asks notReflection notIdentity segment reserved
    exact reserved_agrees asks notReflection notIdentity segment reserved
  · intro protocol method metadata asks segment offers
    exact framework_agrees asks segment offers
  · intro hosted listed notReserved method metadata isInit asks segment accepted
    have callable := described_iff_callable built named listed asks notReserved segment.nonempty
      accepted
    refine ⟨callable, callable.trans (and_congr_right fun application => ?_)⟩
    rw [application_agrees named asks (applicationName_hosted built named listed notReserved)
      segment application]
  · intro metadata target info resolves application
    exact resolveRaw_isolated named resolves application
  · intro path routed metadata target info resolves found application
    exact resolveHttp_isolated resolves found application

end Built

/-! ## One server -/

def pingMethod : Registered Unit where
  info := ⟨ascii "ping", .unary, some [], some [], none, false, false⟩
  acceptsParams _ := true

/-- Two protocols with a method of the same name, and transport options. -/
def twoProtocols : ServerBuilder Unit where
  primary := ⟨ascii "App", [], [pingMethod], List.nodup_singleton _⟩
  extraProtocols := [⟨ascii "Other", [], [pingMethod], List.nodup_singleton _⟩]
  transportOptions := some fun _ => true
  identity := none

/-- The server that is built. -/
def twoProtocolsServer : BuiltServer Unit where
  primary := twoProtocols.primary.set (transportOptionsMethod fun _ => true)
  others := twoProtocols.extraProtocols
  identity := none

def requestFor (protocol method : Bytes) : Metadata :=
  [(Keys.protocol, protocol), (Keys.method, method), (Keys.requestVersion, ascii "1")]

theorem twoProtocols_agree :
    resolveHttp twoProtocolsServer (methodTarget (ascii "Other") (ascii "ping") false)
        (requestFor (ascii "Other") (ascii "ping")) =
      resolveRaw twoProtocolsServer.served (requestFor (ascii "Other") (ascii "ping")) := by
  have agrees := routing_agrees (rfl : build twoProtocols = .ok twoProtocolsServer)
    (by decide)
  exact agrees.1 (ascii "Other") (ascii "ping") _ false ⟨rfl, rfl, rfl⟩
    ⟨rfl, rfl, by decide, by decide⟩ ⟨by decide, by decide, by decide⟩ rfl

/-- A reserved method is called on the raw transport under any name, and on HTTP only on its own
route; a name that is not of the grammar is refused with other errors. -/
theorem reserved_diverges :
    build twoProtocols = .ok twoProtocolsServer ∧
      resolveRaw twoProtocolsServer.served
        (requestFor (ascii "Other") (ascii "__transport_options__")) =
          .ok (.method twoProtocolsServer.primary.served ⟨.unary, fun _ => true⟩) ∧
      resolveHttp twoProtocolsServer
        (methodTarget (ascii "Other") (ascii "__transport_options__") false)
        (requestFor (ascii "Other") (ascii "__transport_options__")) =
          .error .methodNotImplemented ∧
      resolveRaw twoProtocolsServer.served (requestFor (ascii "1x") (ascii "ping")) =
        .error .protocolNotSupported ∧
      resolveHttp twoProtocolsServer (methodTarget (ascii "1x") (ascii "ping") false)
        (requestFor (ascii "1x") (ascii "ping")) = .error .noRoute :=
  ⟨rfl, rfl, rfl, rfl, rfl⟩

end VgiRpc.Server
