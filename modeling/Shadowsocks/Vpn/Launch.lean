import Shadowsocks.Vpn.Settling

/-!
# What the native processes are started with

`SsLocalProcess` and `PdnsdProcess` keep the config of the first start, and routes are
compared as objects. What a start is to launch is said here by the values of its own config
alone, with every text compared as a text, and it is found exactly where the config that is
kept and the objects that are compared give the same.
-/

namespace Shadowsocks.Vpn
set_option autoImplicit false

/-- The processes in question. -/
def Launch.watched (launch : Launch) : Bool := launch.program = .ssLocal || launch.program = .pdnsd

/-- A method launches these, besides `ss-tunnel` and `tun2socks`. -/
def Launches {α : Type} (s : Service) (launches : List Launch) (r : EStateM.Result Throwable Service α) : Prop :=
  (left r).launched.filter Launch.watched = s.launched.filter Launch.watched ++ launches

/-! ## What the values mean -/

namespace SsConfig
variable (c : SsConfig)

/-- The text of the route. -/
def routeText : Option Text := c.route.map Str.text

/-- The route asks for a resolver of its own for China. -/
def ChinaDirect : Prop := c.routeText = some "bypass-china".toList ∨ c.routeText = some "bypass-lan-china".toList

instance : Decidable c.ChinaDirect := inferInstanceAs (Decidable (_ ∨ _))

end SsConfig

/-- The lines of `acl.list` for the route with a text. -/
def listNamed (res : Resources) (route : Option Text) : List Text :=
  if route = some "bypass-lan".toList then res.privateRoute
  else if route = some "bypass-china".toList ∨ route = some "bypass-lan-china".toList then res.chnRoute
  else []

/-- The arguments of `ss-local` before `-A` and `--acl`. -/
def ssLocalBase : List Text :=
  [base ++ "/ss-local".toList, "-V".toList, "-u".toList, "-b".toList, "127.0.0.1".toList, "-t".toList, "600".toList,
    "-c".toList, File.ssLocal.path, "-P".toList, base]

/-- `ss-local` as the values of `c` have it: with `-A` for one-time authentication, and with
the list of the route unless everything goes through the proxy. -/
def ssLocalMeant (res : Resources) (c : SsConfig) (auth : Bool) : Launch :=
  let args := ssLocalBase ++ if auth then ["-A".toList] else []
  let conf := some (println (shadowsocksConf c c.localPort))
  if c.routeText = some "all".toList then { program := .ssLocal, cmd := args, files := [conf] }
  else
    { program := .ssLocal, cmd := args ++ ["--acl".toList, File.acl.path]
      files := [conf, some ((listNamed res c.routeText).flatMap println)] }

/-- `pdnsd` as the values of `c` have it. -/
def pdnsdMeant (res : Resources) (c : SsConfig) (ipv6 : Bool) : Launch :=
  let rejected := if ipv6 then [] else "reject = ::/0;".toList
  let conf :=
    if c.ChinaDirect then
      format pdnsdDirect ["0.0.0.0".toList, "8153".toList, res.reject, res.blackList, "8163".toList, rejected]
    else format pdnsdLocal ["0.0.0.0".toList, "8153".toList, "8163".toList, rejected]
  { program := .pdnsd, cmd := [base ++ "/pdnsd".toList, "-c".toList, File.pdnsd.path], files := [some (println conf)] }

/-- `ss-local` can be started with the values of `c`: its files can be written and `auth` is
not null. -/
def Startable (env : Env) (c : SsConfig) : Prop :=
  (c.routeText = some "all".toList ∨ env.writable .acl = true) ∧ env.writable .ssLocal = true ∧ c.auth ≠ none

instance (env : Env) (c : SsConfig) : Decidable (Startable env c) := inferInstanceAs (Decidable (_ ∧ _ ∧ _))

/-- What a start with the values of `c` is to launch, once the server is resolved. -/
def meant (res : Resources) (env : Env) (c : SsConfig) : List Launch :=
  if Startable env c then
    ssLocalMeant res c (c.auth.getD false) ::
      if c.ipv6 ≠ none ∧ env.writable .pdnsd = true then [pdnsdMeant res c (c.ipv6.getD false)] else []
  else []

/-! ## What a start launches -/

/-- Launches add up, as long as only the first part launches. -/
theorem launches_bind {α β : Type} {m : Java α} {k : α → Java β} {s : Service} {launches : List Launch}
    (first : Launches s launches (m s)) (rest : ∀ a s', m s = .ok a s' → Launches s' [] (k a s')) :
    Launches s launches ((m >>= k) s) := by
  unfold Launches at first rest ⊢
  cases ran : m s with
  | ok a s' =>
    rw [ran] at first
    rw [java_bind_ok ran, rest a s' ran, List.append_nil]
    exact first
  | error e s' =>
    rw [ran] at first
    rw [java_bind_error ran]
    exact first

/-- The last part of `startRunner` starts no process. -/
theorem conclude_launches (env : Env) (handled : Bool) (s : Service) : Launches s [] (conclude env handled s) := by
  cases handled with
  | true => exact (List.append_nil _).symm
  | false => exact (List.append_nil _).symm

theorem startVpn_launches (env : Env) {s : Service} (held : s.config.isSome) : Launches s [] (startVpn env s) := by
  rw [startVpn_run env held]
  refine Eq.trans ?_ (List.append_nil _).symm
  unfold vpnResult
  split
  · rfl
  · split
    · rfl
    · rfl
    · rfl
    · split
      · rfl
      · show List.filter _ (s.launched ++ [_]) = _
        rw [List.filter_append]
        exact List.append_nil _

/-- `ss-local` is reached and started, with a route compared as an object. -/
def Started (env : Env) (route : Option Str) (auth : Option Bool) : Prop :=
  (route = some Route.all ∨ env.writable .acl = true) ∧ env.writable .ssLocal = true ∧ auth ≠ none

instance (env : Env) (route : Option Str) (auth : Option Bool) : Decidable (Started env route auth) :=
  inferInstanceAs (Decidable (_ ∧ _ ∧ _))

/-- What the daemons launch of the processes in question. -/
def daemonsStarted (res : Resources) (env : Env) (s : Service) : List Launch :=
  if Started env s.cfg.route s.localConfig.auth then
    ssLocalLaunch s.localConfig (localFiles res s) ::
      if s.pdnsdConfig.ipv6 ≠ none ∧ env.writable .pdnsd = true then [pdnsdLaunch res s.pdnsdConfig] else []
  else []

/-- `ss-local` is started for a configuration with `auth` set, if its files can be written. -/
theorem localEnd_returns (env : Env) (s : Service) :
    localEnd env s = .returns ↔ Started env s.cfg.route s.localConfig.auth := by
  unfold localEnd Started
  split_ifs <;> simp_all

/-- `pdnsd` is started for a configuration with `ipv6` set, if its file can be written. -/
theorem pdnsdEnd_returns (env : Env) (s : Service) :
    pdnsdEnd env s = .returns ↔ s.pdnsdConfig.ipv6 ≠ none ∧ env.writable .pdnsd = true := by
  unfold pdnsdEnd
  split_ifs <;> simp_all

/-- Of the three daemons two are among the watched ones. -/
theorem daemonsLaunches_watched (res : Resources) (env : Env) (s : Service) :
    (daemonsLaunches res env s).filter Launch.watched = daemonsStarted res env s := by
  have tunnel : (ssTunnelLaunch s.cfg).watched = false := rfl
  have local_ : (ssLocalLaunch s.localConfig (localFiles res s)).watched = true := rfl
  have pdnsd : (pdnsdLaunch res s.pdnsdConfig).watched = true := rfl
  unfold daemonsLaunches daemonsStarted
  simp only [localEnd_returns, pdnsdEnd_returns]
  split_ifs <;> simp [tunnel, local_, pdnsd]

/-- A connection starts the daemons, and `startVpn` adds none of them. -/
theorem handleConnection_launches (res : Resources) (env : Env) {s : Service} (held : s.config.isSome) :
    Launches s (daemonsStarted res env s) (handleConnection res env s) := by
  have split_ : handleConnection res env =
      (do startShadowsocksDaemon res env; startDnsDaemon res env; startDnsTunnel env) >>= fun _ =>
        startVpn env >>= fun fd => pure (sendFd env fd) := by
    simp only [handleConnection, bind_assoc]
  have quiet := (daemons_ended res env held).quiet
  rw [split_]
  refine launches_bind ?_ fun _ s' ran => ?_
  · rw [Launches, quiet.launched, List.filter_append, daemonsLaunches_watched]
  · rw [ran] at quiet
    refine launches_bind (startVpn_launches env (by rwa [← quiet.config] at held)) fun _ _ _ => (List.append_nil _).symm

/-- What `startRunner` launches with the config of `t`. -/
theorem startRunner_launches (res : Resources) (env : Env) (ref : Nat) (s : Service) :
    Launches s
      (if resolution env (s.begun (some ref)).cfg.host = some true then
        daemonsStarted res env ((s.begun (some ref)).withHost (resolvedHost env (s.begun (some ref)).cfg.host)) else [])
      (startRunner res env (some ref) s) := by
  have held : (s.begun (some ref)).config.isSome := rfl
  have ran := resolveServer_run env held
  rw [startRunner_run]
  show Launches (s.begun (some ref)) _ _
  cases resolved : resolution env (s.begun (some ref)).cfg.host with
  | none =>
    simp only [resolved] at ran
    rw [java_bind_error ran]
    exact (List.append_nil _).symm
  | some found =>
    simp only [resolved] at ran
    rw [java_bind_ok ran]
    cases found with
    | false => exact conclude_launches env false _
    | true =>
      rw [if_pos rfl, if_pos rfl]
      have handled := handleConnection_launches res env
        (s := (s.begun (some ref)).withHost (resolvedHost env (s.begun (some ref)).cfg.host)) held
      exact launches_bind handled fun done _ _ => conclude_launches env done _

/-! ## Equal launches -/

/-- Only the route `all` has no `--acl`. -/
theorem ssLocalCmd_all (auth : Bool) :
    ssLocalCmd auth (some Route.all) = (if auth then ssLocalBase ++ ["-A".toList] else ssLocalBase, [.ssLocal]) := by
  rw [ssLocalCmd, if_neg (not_not_intro rfl)]
  rfl

theorem ssLocalCmd_bypass (auth : Bool) {route : Option Str} (bypass : route ≠ some Route.all) :
    ssLocalCmd auth route = ((if auth then ssLocalBase ++ ["-A".toList] else ssLocalBase) ++ ["--acl".toList, File.acl.path],
      [.ssLocal, .acl]) := by
  rw [ssLocalCmd, if_pos bypass]
  rfl

/-- The length of the command line tells whether `-A` and `--acl` are in it. -/
theorem ssLocalCmd_length (auth : Bool) (route : Option Str) :
    (ssLocalCmd auth route).1.length = 11 + (if auth then 1 else 0) + if route = some Route.all then 0 else 2 := by
  by_cases all : route = some Route.all
  · rw [all, ssLocalCmd_all, if_pos rfl]
    cases auth <;> rfl
  · rw [ssLocalCmd_bypass auth all, if_neg all, List.length_append]
    cases auth <;> rfl

/-- The arguments tell whether there is authentication and whether there is an access list. -/
theorem ssLocalCmd_inj {auth auth' : Bool} {route route' : Option Str}
    (same : (ssLocalCmd auth route).1 = (ssLocalCmd auth' route').1) :
    auth = auth' ∧ (route = some Route.all ↔ route' = some Route.all) := by
  have lengths := congrArg List.length same
  rw [ssLocalCmd_length, ssLocalCmd_length] at lengths
  by_cases all : route = some Route.all <;> by_cases all' : route' = some Route.all <;> cases auth <;> cases auth' <;>
    simp [all, all'] at lengths ⊢

/-- With the same configuration file, two starts of `ss-local` are the same if and only if their
flags and their lists are. -/
theorem ssLocalLaunch_eq_iff {c v : SsConfig} {files files' : File → Option Text} (auth : c.auth ≠ none) (auth' : v.auth ≠ none)
    (conf : files .ssLocal = files' .ssLocal) :
    ssLocalLaunch c files = ssLocalLaunch v files' ↔
      c.auth = v.auth ∧ (c.route = some Route.all ↔ v.route = some Route.all) ∧
        (v.route ≠ some Route.all → files .acl = files' .acl) := by
  obtain ⟨a, authEq⟩ := Option.ne_none_iff_exists'.mp auth
  obtain ⟨a', authEq'⟩ := Option.ne_none_iff_exists'.mp auth'
  unfold ssLocalLaunch
  rw [authEq, authEq', Option.getD_some, Option.getD_some]
  constructor
  · intro same
    obtain ⟨sameAuth, sameRoute⟩ := ssLocalCmd_inj (congrArg Launch.cmd same)
    refine ⟨congrArg some sameAuth, sameRoute, fun bypass => ?_⟩
    have read := congrArg Launch.files same
    rw [ssLocalCmd_bypass a (mt sameRoute.mp bypass), ssLocalCmd_bypass a' bypass] at read
    exact (List.cons.inj (List.cons.inj read).2).1
  · rintro ⟨sameAuth, sameRoute, acl⟩
    cases sameAuth
    by_cases all : v.route = some Route.all
    · rw [all, sameRoute.mpr all, ssLocalCmd_all]
      simp only [List.map_cons, List.map_nil, conf]
    · rw [ssLocalCmd_bypass a all, ssLocalCmd_bypass a (mt sameRoute.mp all)]
      simp only [List.map_cons, List.map_nil, conf, acl all]

/-- The template is the one that resolves directly. -/
def Direct (route : Option Str) : Prop := route = some Route.bypassChn ∨ route = some Route.bypassLanChn

instance (route : Option Str) : Decidable (Direct route) := inferInstanceAs (Decidable (_ ∨ _))

set_option maxRecDepth 4000 in
/-- The length tells one template from the other. -/
theorem pdnsdDirect_length {args : List Text} (six : args.length = 6) :
    (format pdnsdDirect args).length = (measure pdnsdDirect).2 + (args.map List.length).sum := by
  have specifiers : (measure pdnsdDirect).1 = 6 := by decide +kernel
  exact format_length pdnsdDirect args (six.trans specifiers.symm)

set_option maxRecDepth 4000 in
theorem pdnsdLocal_length {args : List Text} (four : args.length = 4) :
    (format pdnsdLocal args).length = (measure pdnsdLocal).2 + (args.map List.length).sum := by
  have specifiers : (measure pdnsdLocal).1 = 4 := by decide +kernel
  exact format_length pdnsdLocal args (four.trans specifiers.symm)

set_option maxRecDepth 4000 in
/-- The byte at which the templates part. -/
theorem pdnsdDirect_start (args : List Text) : (format pdnsdDirect args)[8]? = some '\n' := by
  rw [format_getElem? _ _ _ (by decide +kernel)]
  decide +kernel

set_option maxRecDepth 4000 in
theorem pdnsdLocal_start (args : List Text) : (format pdnsdLocal args)[8]? = some ' ' := by
  rw [format_getElem? _ _ _ (by decide +kernel)]
  decide +kernel

/-- The last argument of a template is seen in the length. -/
theorem rejection_inj (args : List Nat) {n : Nat} {ipv6 ipv6' : Bool}
    (same : n + (args ++ [(if ipv6 then ([] : Text) else "reject = ::/0;".toList).length]).sum =
      n + (args ++ [(if ipv6' then ([] : Text) else "reject = ::/0;".toList).length]).sum) : ipv6 = ipv6' := by
  simp only [List.sum_append, List.sum_singleton] at same
  cases ipv6 <;> cases ipv6' <;> simp at same ⊢

/-- The file of `pdnsd` depends on `ipv6` and on the kind of route only. -/
theorem pdnsdConf_eq_iff {res : Resources} {ipv6 ipv6' : Bool} {route route' : Option Str} :
    pdnsdConf res ipv6 route = pdnsdConf res ipv6' route' ↔ ipv6 = ipv6' ∧ (Direct route ↔ Direct route') := by
  have direct : ∀ ipv6 route, Direct route → pdnsdConf res ipv6 route = format pdnsdDirect ["0.0.0.0".toList, decimal 8153,
      res.reject, res.blackList, decimal 8163, if ipv6 then [] else "reject = ::/0;".toList] := fun _ _ d => if_pos d
  have indirect : ∀ ipv6 route, ¬ Direct route → pdnsdConf res ipv6 route = format pdnsdLocal ["0.0.0.0".toList,
      decimal 8153, decimal 8163, if ipv6 then [] else "reject = ::/0;".toList] := fun _ _ d => if_neg d
  by_cases d : Direct route <;> by_cases d' : Direct route'
  · rw [direct _ _ d, direct _ _ d']
    refine ⟨fun same => ⟨?_, iff_of_true d d'⟩, fun both => by rw [both.1]⟩
    have lengths := congrArg List.length same
    rw [pdnsdDirect_length rfl, pdnsdDirect_length rfl] at lengths
    exact rejection_inj [_, _, _, _, _] lengths
  · rw [direct _ _ d, indirect _ _ d']
    refine iff_of_false (fun same => ?_) (fun both => d' (both.2.mp d))
    have ninth := congrArg (fun conf => conf[8]?) same
    simp only [pdnsdDirect_start, pdnsdLocal_start] at ninth
    exact absurd ninth (by decide)
  · rw [indirect _ _ d, direct _ _ d']
    refine iff_of_false (fun same => ?_) (fun both => d (both.2.mpr d'))
    have ninth := congrArg (fun conf => conf[8]?) same
    simp only [pdnsdDirect_start, pdnsdLocal_start] at ninth
    exact absurd ninth (by decide)
  · rw [indirect _ _ d, indirect _ _ d']
    refine ⟨fun same => ⟨?_, iff_of_false d d'⟩, fun both => by rw [both.1]⟩
    have lengths := congrArg List.length same
    rw [pdnsdLocal_length rfl, pdnsdLocal_length rfl] at lengths
    exact rejection_inj [_, _, _] lengths

theorem pdnsdLaunch_eq_iff {res : Resources} {c v : SsConfig} (ipv6 : c.ipv6 ≠ none) (ipv6' : v.ipv6 ≠ none) :
    pdnsdLaunch res c = pdnsdLaunch res v ↔ c.ipv6 = v.ipv6 ∧ (Direct c.route ↔ Direct v.route) := by
  obtain ⟨i, ipv6Eq⟩ := Option.ne_none_iff_exists'.mp ipv6
  obtain ⟨i', ipv6Eq'⟩ := Option.ne_none_iff_exists'.mp ipv6'
  have confs : pdnsdConf res i c.route = pdnsdConf res i' v.route ↔ i = i' ∧ (Direct c.route ↔ Direct v.route) :=
    pdnsdConf_eq_iff
  rw [ipv6Eq, ipv6Eq', Option.some_inj, ← confs]
  unfold pdnsdLaunch println
  rw [ipv6Eq, ipv6Eq']
  simp

/-- Both would start `pdnsd` alike, or neither. -/
theorem pdnsdStarts_eq_iff {res : Resources} {env : Env} {c v : SsConfig} :
    ((if c.ipv6 ≠ none ∧ env.writable .pdnsd = true then [pdnsdLaunch res c] else []) =
      if v.ipv6 ≠ none ∧ env.writable .pdnsd = true then [pdnsdLaunch res v] else []) ↔
      (env.writable .pdnsd = true → c.ipv6 = v.ipv6 ∧ (v.ipv6 ≠ none → (Direct c.route ↔ Direct v.route))) := by
  by_cases writable : env.writable .pdnsd = true
  · simp only [writable, and_true, forall_const]
    by_cases ipv6 : c.ipv6 = none <;> by_cases ipv6' : v.ipv6 = none
    · simp [ipv6, ipv6']
    · simp [ipv6, ipv6', Ne.symm ipv6']
    · simp [ipv6, ipv6']
    · simp [ipv6, ipv6', pdnsdLaunch_eq_iff ipv6 ipv6']
  · simp [writable]

/-! ## A config whose route is a literal

With it, what the code compares as objects is what the texts say.
-/

/-- The config with its route as a literal. -/
def SsConfig.byValue (c : SsConfig) : SsConfig := { c with route := c.route.map fun route => { text := route.text } }

/-- Routes compare by reference in the code, and by their text among the values. -/
theorem byValue_route_iff (c : SsConfig) (text : Text) :
    c.byValue.route = some { text := text } ↔ c.routeText = some text := by
  unfold SsConfig.byValue SsConfig.routeText
  cases c.route with
  | none => exact iff_of_false nofun nofun
  | some route => simp

/-- The tests of the code, on values. -/
theorem direct_byValue (c : SsConfig) : Direct c.byValue.route ↔ c.ChinaDirect :=
  or_congr (byValue_route_iff c _) (byValue_route_iff c _)

theorem started_byValue (env : Env) (c : SsConfig) : Started env c.byValue.route c.byValue.auth ↔ Startable env c := by
  unfold Started Startable
  rw [show c.byValue.route = some Route.all ↔ _ from byValue_route_iff c _]
  exact Iff.rfl

theorem aclLines_byValue (res : Resources) (c : SsConfig) : aclLines res c.byValue.route = listNamed res c.routeText := by
  unfold aclLines listNamed Route.bypassLan Route.bypassChn Route.bypassLanChn
  simp only [byValue_route_iff]
  split_ifs <;> simp_all

/-- A route that is not a literal is none of those that the code knows. -/
theorem route_literal {c : SsConfig} (other : c.route ≠ c.byValue.route) (text : Text) : c.route ≠ some { text := text } := by
  intro literal
  refine other ?_
  rw [SsConfig.byValue, literal]
  rfl

/-- A list is written as an empty file only if it is empty. -/
theorem println_flatMap_eq_nil {lines : List Text} : lines.flatMap println = [] ↔ lines = [] := by
  rw [List.flatMap_eq_nil_iff, List.eq_nil_iff_forall_not_mem]
  exact forall₂_congr fun line _ => iff_of_false (fun none_ => List.cons_ne_nil _ _ (List.append_eq_nil_iff.mp none_).2) id

/-- The lines that are written are those of the route's text where the route is a literal,
or where there are none. -/
theorem aclLines_eq_iff (res : Resources) (c : SsConfig) :
    (aclLines res c.route).flatMap println = (listNamed res c.routeText).flatMap println ↔
      c.route = c.byValue.route ∨ listNamed res c.routeText = [] := by
  by_cases literal : c.route = c.byValue.route
  · rw [← aclLines_byValue, ← literal]
    exact iff_of_true rfl (.inl rfl)
  · have unknown : aclLines res c.route = [] := by
      unfold aclLines Route.bypassLan Route.bypassChn Route.bypassLanChn
      rw [if_neg (route_literal literal _), if_neg (route_literal literal _), if_neg (route_literal literal _)]
    rw [unknown, or_iff_right literal, ← println_flatMap_eq_nil]
    exact eq_comm

/-- The files as the values of `c` have them. -/
def meantFiles (res : Resources) (c : SsConfig) : File → Option Text
  | .acl => some ((listNamed res c.routeText).flatMap println)
  | .ssLocal => some (println (shadowsocksConf c c.localPort))
  | .ssTunnel | .pdnsd => none

/-- What is meant is what a service would start that has only the values. -/
theorem ssLocalMeant_eq (res : Resources) (c : SsConfig) :
    ssLocalMeant res c (c.auth.getD false) = ssLocalLaunch c.byValue (meantFiles res c) := by
  have args : ∀ auth : Bool, (ssLocalBase ++ if auth then ["-A".toList] else []) =
      if auth then ssLocalBase ++ ["-A".toList] else ssLocalBase := by
    intro auth
    cases auth <;> rfl
  have all : c.byValue.route = some Route.all ↔ c.routeText = some "all".toList := byValue_route_iff c _
  have auth : c.byValue.auth = c.auth := rfl
  unfold ssLocalMeant ssLocalLaunch
  rw [args, auth]
  by_cases everything : c.routeText = some "all".toList
  · rw [if_pos everything, all.mpr everything, ssLocalCmd_all]
    rfl
  · rw [if_neg everything, ssLocalCmd_bypass _ (mt all.mp everything)]
    rfl

set_option maxRecDepth 4000 in
/-- The command line of `pdnsd`, split at its spaces. -/
theorem pdnsdCmd_words : pdnsdCmd.splitOn ' ' = [base ++ "/pdnsd".toList, "-c".toList, File.pdnsd.path] := by
  decide +kernel

theorem pdnsdMeant_eq (res : Resources) (c : SsConfig) :
    pdnsdMeant res c (c.ipv6.getD false) = pdnsdLaunch res c.byValue := by
  have conf : ∀ ipv6 : Bool, pdnsdConf res ipv6 c.byValue.route = if c.ChinaDirect then _ else _ :=
    fun _ => if_congr (direct_byValue c) rfl rfl
  unfold pdnsdMeant pdnsdLaunch
  rw [pdnsdCmd_words, conf]
  rfl

theorem meant_eq (res : Resources) (env : Env) (c : SsConfig) :
    meant res env c =
      if Started env c.byValue.route c.byValue.auth then
        ssLocalLaunch c.byValue (meantFiles res c) ::
          if c.byValue.ipv6 ≠ none ∧ env.writable .pdnsd = true then [pdnsdLaunch res c.byValue] else []
      else [] := by
  unfold meant
  rw [ssLocalMeant_eq, pdnsdMeant_eq]
  exact if_congr (started_byValue env c).symm rfl rfl

/-! ## When a start launches what is meant -/

/-- For a start with `c` while `kept` is the config of the singletons: the objects compared
are as the texts, and what is taken from `kept` is as in `c`. -/
@[mk_iff]
structure Fits (res : Resources) (env : Env) (kept c : SsConfig) : Prop where
  /-- Nothing is started that should not be, nor left out. -/
  starts : Started env c.route kept.auth ↔ Startable env c
  auth : Startable env c → kept.auth = c.auth
  /-- The route kept is the literal "all" where the one passed says "all". -/
  route : Startable env c → (kept.route = some Route.all ↔ c.routeText = some "all".toList)
  /-- The route passed is a literal, or names an empty list. -/
  acl : Startable env c → c.routeText ≠ some "all".toList → c.route = c.byValue.route ∨ listNamed res c.routeText = []
  ipv6 : Startable env c → env.writable .pdnsd = true → kept.ipv6 = c.ipv6
  pdnsd : Startable env c → env.writable .pdnsd = true → c.ipv6 ≠ none → (Direct kept.route ↔ c.ChinaDirect)

/-- The file of `ss-local` has the server of the current configuration. -/
theorem localFiles_conf (res : Resources) (s : Service) :
    localFiles res s .ssLocal = some (println (shadowsocksConf s.cfg s.cfg.localPort)) := Function.update_self _ _ _

theorem localFiles_acl (res : Resources) {s : Service} (bypass : s.cfg.route ≠ some Route.all) :
    localFiles res s .acl = some ((aclLines res s.cfg.route).flatMap println) := by
  rw [localFiles, Function.update_of_ne (by decide : File.acl ≠ File.ssLocal), if_neg bypass]
  exact Function.update_self _ _ _

/-- A list is written for a route that does not say "all", and it is the one meant where the
route is a literal or nothing is to be listed. -/
theorem localFiles_acl_iff {res : Resources} {s : Service} (bypass : s.cfg.routeText ≠ some "all".toList) :
    localFiles res s .acl = meantFiles res s.cfg .acl ↔
      s.cfg.route = s.cfg.byValue.route ∨ listNamed res s.cfg.routeText = [] := by
  have object : s.cfg.route ≠ some Route.all := by
    intro all
    rw [SsConfig.routeText, all] at bypass
    exact bypass rfl
  rw [localFiles_acl res object]
  exact Option.some_inj.trans (aclLines_eq_iff res s.cfg)

/-- With one config kept by both singletons, the daemons start what is meant iff that config
fits. -/
theorem daemonsStarted_eq_iff (res : Resources) (env : Env) {s : Service} (one : s.pdnsdConfig = s.localConfig) :
    daemonsStarted res env s = meant res env s.cfg ↔ Fits res env s.localConfig s.cfg := by
  have all : s.cfg.byValue.route = some Route.all ↔ s.cfg.routeText = some "all".toList := byValue_route_iff _ _
  rw [meant_eq]
  unfold daemonsStarted
  by_cases startable : Startable env s.cfg
  · have meant_ := (started_byValue env s.cfg).mpr startable
    rw [if_pos meant_]
    by_cases starts : Started env s.cfg.route s.localConfig.auth
    · rw [if_pos starts, List.cons.injEq, ssLocalLaunch_eq_iff starts.2.2 meant_.2.2 (localFiles_conf res s),
        pdnsdStarts_eq_iff, one, all, direct_byValue]
      constructor
      · rintro ⟨⟨auth, route, acl⟩, pdnsd⟩
        exact ⟨iff_of_true starts startable, fun _ => auth, fun _ => route,
          fun _ bypass => (localFiles_acl_iff bypass).mp (acl (mt all.mp bypass)), fun _ open_ => (pdnsd open_).1,
          fun _ open_ => (pdnsd open_).2⟩
      · intro fits
        refine ⟨⟨fits.auth startable, fits.route startable, fun bypass => ?_⟩, fun open_ => ?_⟩
        · have bypass' : s.cfg.routeText ≠ some "all".toList := mt all.mpr bypass
          exact (localFiles_acl_iff bypass').mpr (fits.acl startable bypass')
        · exact ⟨fits.ipv6 startable open_, fits.pdnsd startable open_⟩
    · rw [if_neg starts]
      exact iff_of_false nofun (fun fits => starts (fits.starts.mpr startable))
  · rw [if_neg (mt (started_byValue env s.cfg).mp startable)]
    by_cases starts : Started env s.cfg.route s.localConfig.auth
    · rw [if_pos starts]
      exact iff_of_false nofun (fun fits => startable (fits.starts.mp starts))
    · rw [if_neg starts]
      exact iff_of_true rfl ⟨iff_of_false starts startable, fun s => absurd s startable, fun s => absurd s startable,
        fun s => absurd s startable, fun s => absurd s startable, fun s => absurd s startable⟩

end Shadowsocks.Vpn
