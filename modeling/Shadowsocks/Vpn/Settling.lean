import Shadowsocks.Vpn.Service

/-!
# How a start ends

Each daemon either returns, throws or takes the application with it, and until then
nothing is posted. `startRunner` therefore ends in a settled state exactly where the
answers of the outside lead it through one of its two orderly ways out.
-/

namespace Shadowsocks.Vpn
set_option autoImplicit false

section
variable {α β : Type} {s s' : Service}

/-- What follows begins in the state that is left. -/
theorem java_bind_ok {m : Java α} {k : α → Java β} {a : α} (h : m s = .ok a s') : (m >>= k) s = k a s' := by
  simp only [bind, EStateM.bind, h]

/-- An exception ends the method. -/
theorem java_bind_error {m : Java α} {k : α → Java β} {e : Throwable} (h : m s = .error e s') :
    (m >>= k) s = .error e s' := by
  simp only [bind, EStateM.bind, h]

end

/-- How a method ends. -/
inductive End where
  | returns | throws | dies
  deriving DecidableEq, Repr

/-- The end of two methods called one after the other. -/
def End.andThen : End → End → End
  | .returns, e => e
  | e, _ => e

namespace Service
variable (s : Service)

/-- The config of the service. -/
def cfg : SsConfig := (s.config.map s.objects).getD {}

/-- The config that `SsLocalProcess` has once it is created. -/
def localConfig : SsConfig := ((s.ssLocal <|> s.config).map s.objects).getD {}

/-- The config that `PdnsdProcess` has once it is created. -/
def pdnsdConfig : SsConfig := ((s.pdnsd <|> s.config).map s.objects).getD {}

end Service

/-! ## The daemons -/

/-- What the daemons leave as it is, and what they start. -/
structure Quiet (s s' : Service) (launches : List Launch) : Prop where
  config : s'.config = s.config
  objects : s'.objects = s.objects
  conn : s'.conn = s.conn
  posted : s'.posted = s.posted
  ssLocal : (s'.ssLocal <|> s'.config) = (s.ssLocal <|> s.config)
  pdnsd : (s'.pdnsd <|> s'.config) = (s.pdnsd <|> s.config)
  launched : s'.launched = s.launched ++ launches

namespace Quiet
variable {s s' s'' : Service} {launches launches' : List Launch}

/-- Quiet parts one after the other. -/
theorem trans (first : Quiet s s' launches) (rest : Quiet s' s'' launches') : Quiet s s'' (launches ++ launches') where
  config := rest.config.trans first.config
  objects := rest.objects.trans first.objects
  conn := rest.conn.trans first.conn
  posted := rest.posted.trans first.posted
  ssLocal := rest.ssLocal.trans first.ssLocal
  pdnsd := rest.pdnsd.trans first.pdnsd
  launched := by rw [rest.launched, first.launched, List.append_assoc]

/-- A part that does nothing. -/
theorem refl (s : Service) : Quiet s s [] := ⟨rfl, rfl, rfl, rfl, rfl, rfl, (List.append_nil _).symm⟩

/-- What is read of the configurations is the same behind a quiet part. -/
theorem cfg_eq (quiet : Quiet s s' launches) : s'.cfg = s.cfg := by
  rw [Service.cfg, quiet.config, quiet.objects, Service.cfg]

theorem localConfig_eq (quiet : Quiet s s' launches) : s'.localConfig = s.localConfig := by
  rw [Service.localConfig, quiet.ssLocal, quiet.objects, Service.localConfig]

theorem pdnsdConfig_eq (quiet : Quiet s s' launches) : s'.pdnsdConfig = s.pdnsdConfig := by
  rw [Service.pdnsdConfig, quiet.pdnsd, quiet.objects, Service.pdnsdConfig]

end Quiet

/-- A method ends as `e` and has started `launches`. -/
inductive Ended {α : Type} (s : Service) (launches : List Launch) : End → EStateM.Result Throwable Service α → Prop where
  | returned {a : α} {s' : Service} (quiet : Quiet s s' launches) : Ended s launches .returns (.ok a s')
  | threw {e : Throwable} {s' : Service} (alive : e ≠ .killed) (quiet : Quiet s s' launches) :
      Ended s launches .throws (.error e s')
  | killed {s' : Service} (quiet : Quiet s s' launches) : Ended s launches .dies (.error .killed s')

/-- The service that a method leaves. -/
def left {α : Type} : EStateM.Result Throwable Service α → Service
  | .ok _ s | .error _ s => s

/-- However a quiet part ends, its fields are kept. -/
theorem Ended.quiet {α : Type} {s : Service} {launches : List Launch} {e : End} {r : EStateM.Result Throwable Service α}
    (ended : Ended s launches e r) : Quiet s (left r) launches := by
  cases ended with
  | returned quiet => exact quiet
  | threw _ quiet => exact quiet
  | killed quiet => exact quiet

/-- Something quiet comes first. -/
theorem Quiet.ended {α : Type} {s s' : Service} {launches launches' : List Launch} {e : End}
    {r : EStateM.Result Throwable Service α} (quiet : Quiet s s' launches) (ended : Ended s' launches' e r) :
    Ended s (launches ++ launches') e r := by
  cases ended with
  | returned quiet' => exact .returned (quiet.trans quiet')
  | threw alive quiet' => exact .threw alive (quiet.trans quiet')
  | killed quiet' => exact .killed (quiet.trans quiet')

theorem Ended.cast {α : Type} {s : Service} {launches launches' : List Launch} {e e' : End}
    {r : EStateM.Result Throwable Service α} (ended : Ended s launches e r) (same : launches = launches') (same' : e = e') :
    Ended s launches' e' r := by
  rwa [← same, ← same']

/-- A part that returns is followed by the next one; otherwise the end is its own. -/
theorem Ended.bind {α β : Type} {s : Service} {m : Java α} {k : α → Java β} {e e' : End} {launches launches' : List Launch}
    (first : Ended s launches e (m s))
    (rest : ∀ a s', Quiet s s' launches → Ended s' launches' e' (k a s')) :
    Ended s (launches ++ if e = .returns then launches' else []) (e.andThen e') ((m >>= k) s) := by
  generalize ran : m s = r at first
  cases first with
  | @returned a s' quiet =>
    rw [java_bind_ok ran]
    exact quiet.ended (rest a s' quiet)
  | threw alive quiet =>
    rw [java_bind_error ran]
    exact .threw alive (by simpa using quiet)
  | killed quiet =>
    rw [java_bind_error ran]
    exact .killed (by simpa using quiet)

/-- Once a configuration is held, it can be read. -/
theorem currentConfig_run {s : Service} (held : s.config.isSome) : currentConfig s = .ok s.cfg s := by
  obtain ⟨ref, config⟩ := Option.isSome_iff_exists.mp held
  unfold currentConfig Service.cfg
  rw [java_bind_ok (rfl : (get : Java Service) s = .ok s s), config]
  rfl

/-- What follows a print is done where the file can be written, else nothing is. -/
theorem printTo_ended {α : Type} (env : Env) (file : File) (content : Text) (s : Service) {k : Unit → Java α}
    {launches : List Launch} {e : End}
    (rest : ∀ t, Quiet s t [] → t.files = Function.update s.files file (some content) → Ended t launches e (k () t)) :
    Ended s (if env.writable file then launches else []) (if env.writable file then e else .throws)
      ((printTo env file content >>= k) s) := by
  unfold printTo
  split
  · have quiet : Quiet s { s with files := Function.update s.files file (some content) } [] :=
      ⟨rfl, rfl, rfl, rfl, rfl, rfl, (List.append_nil _).symm⟩
    exact quiet.ended (rest _ quiet rfl)
  · exact .threw nofun (.refl s)

/-- A process is started with the files as they are. -/
theorem startProcess_ended (program : Program) (cmd : List Text) (reads : List File) (s : Service) :
    Ended s [{ program, cmd, files := reads.map s.files }] .returns (startProcess program cmd reads s) :=
  .returned ⟨rfl, rfl, rfl, rfl, rfl, rfl, rfl⟩

theorem captured_some {s : Service} (instance_ : Option Nat) (held : s.config.isSome) :
    ∃ first, (instance_ <|> s.config) = some first := by
  obtain ⟨ref, config⟩ := Option.isSome_iff_exists.mp held
  rw [config]
  cases instance_ with
  | none => exact ⟨ref, rfl⟩
  | some first => exact ⟨first, rfl⟩

/-- `ss-local` with a config, as the files are. -/
def ssLocalLaunch (config : SsConfig) (files : File → Option Text) : Launch :=
  let call := ssLocalCmd (config.auth.getD false) config.route
  { program := .ssLocal, cmd := call.1, files := call.2.map files }

/-- Unboxing a null `auth` kills the process of the service: no handler is above it. -/
theorem startSsLocal_ended {s : Service} (held : s.config.isSome) :
    Ended s (if s.localConfig.auth = none then [] else [ssLocalLaunch s.localConfig s.files])
      (if s.localConfig.auth = none then .dies else .returns) ((createSsLocal >>= fun _ => startSsLocal) s) := by
  obtain ⟨first, captured⟩ := captured_some s.ssLocal held
  have object : s.localConfig = s.objects first := by rw [Service.localConfig, captured]; rfl
  rw [java_bind_ok (rfl : createSsLocal s = .ok () { s with ssLocal := s.ssLocal <|> s.config, sslocalProcess := true }), object]
  have kept : ∀ launched, Quiet s
      { s with ssLocal := some first, sslocalProcess := true, launched := s.launched ++ launched } launched := by
    intro launched
    refine ⟨rfl, rfl, rfl, rfl, ?_, rfl, rfl⟩
    rw [captured]
    rfl
  rw [startSsLocal, java_bind_ok (rfl : (get : Java Service) _ = .ok _ _)]
  dsimp only
  rw [captured, java_bind_ok (rfl : (deref (some first) : Java Nat) _ = .ok first _)]
  cases auth : (s.objects first).auth with
  | none =>
    dsimp only
    exact .killed (by simpa using kept [])
  | some auth' =>
    dsimp only
    rw [ssLocalLaunch, auth]
    exact .returned (kept _)

/-- How `startShadowsocksDaemon` ends. -/
def localEnd (env : Env) (s : Service) : End :=
  if s.cfg.route = some Route.all ∨ env.writable .acl = true then
    if env.writable .ssLocal = true then if s.localConfig.auth = none then .dies else .returns else .throws
  else .throws

/-- The files as `startShadowsocksDaemon` writes them. -/
def localFiles (res : Resources) (s : Service) : File → Option Text :=
  Function.update
    (if s.cfg.route = some Route.all then s.files
      else Function.update s.files .acl (some ((aclLines res s.cfg.route).flatMap println)))
    .ssLocal (some (println (shadowsocksConf s.cfg s.cfg.localPort)))

/-- The files of `ss-local` are written first, and it is started if that succeeds. -/
theorem startShadowsocksDaemon_ended (res : Resources) (env : Env) {s : Service} (held : s.config.isSome) :
    Ended s (if localEnd env s = .returns then [ssLocalLaunch s.localConfig (localFiles res s)] else []) (localEnd env s)
      (startShadowsocksDaemon res env s) := by
  rw [startShadowsocksDaemon, java_bind_ok (currentConfig_run held)]
  -- from the configuration file on, whatever has been written before
  have conf : ∀ t files, Quiet s t [] → t.files = files → Ended t
      (if env.writable .ssLocal then if s.localConfig.auth = none then [] else [ssLocalLaunch s.localConfig
        (Function.update files .ssLocal (some (println (shadowsocksConf s.cfg s.cfg.localPort))))] else [])
      (if env.writable .ssLocal then if s.localConfig.auth = none then .dies else .returns else .throws)
      ((do printTo env .ssLocal (println (shadowsocksConf s.cfg s.cfg.localPort)); createSsLocal; startSsLocal : Java Unit) t) := by
    rintro t _ before rfl
    refine printTo_ended env .ssLocal _ t fun t' quiet files => ?_
    have started := startSsLocal_ended (s := t') (by rwa [quiet.config, before.config])
    rwa [quiet.localConfig_eq, before.localConfig_eq, files] at started
  unfold localEnd localFiles
  by_cases route : s.cfg.route = some Route.all
  · rw [if_neg (not_not_intro route)]
    refine (conf s s.files (.refl s) rfl).cast ?_ ?_
    · simp only [route, true_or, if_true]
      split_ifs <;> simp_all
    · simp only [route, true_or, if_true]
  · rw [if_pos route]
    refine Ended.cast (printTo_ended env .acl _ s fun t quiet files => conf t _ quiet files) ?_ ?_
    · simp only [route, false_or, if_false]
      split_ifs <;> simp_all
    · simp only [route, false_or]

/-- `ss-tunnel` with a config. -/
def ssTunnelLaunch (config : SsConfig) : Launch :=
  { program := .ssTunnel, cmd := ssTunnelCmd, files := [some (println (shadowsocksConf config 8163))] }

/-- How `startDnsDaemon` ends. -/
def pdnsdEnd (env : Env) (s : Service) : End :=
  if s.pdnsdConfig.ipv6 ≠ none ∧ env.writable .pdnsd = true then .returns else .dies

/-- `pdnsd` with a config. -/
def pdnsdLaunch (res : Resources) (config : SsConfig) : Launch :=
  { program := .pdnsd, cmd := pdnsdCmd.splitOn ' '
    files := [some (println (pdnsdConf res (config.ipv6.getD false) config.route))] }

/-- The first configuration is the one that `pdnsd` keeps. -/
theorem startPdnsd_ended (res : Resources) (env : Env) {t : Service} {first : Nat} (captured : t.pdnsd = some first) :
    Ended t (if (t.objects first).ipv6 ≠ none ∧ env.writable .pdnsd = true then [pdnsdLaunch res (t.objects first)] else [])
      (if (t.objects first).ipv6 ≠ none ∧ env.writable .pdnsd = true then .returns else .dies) (startPdnsd res env t) := by
  rw [startPdnsd, java_bind_ok (rfl : (get : Java Service) t = .ok t t), captured,
    java_bind_ok (rfl : (deref (some first) : Java Nat) t = .ok first t)]
  cases ipv6 : (t.objects first).ipv6 with
  | none =>
    rw [if_neg (fun both => both.1 rfl), if_neg (fun both => both.1 rfl)]
    exact .killed (.refl t)
  | some ipv6' =>
    by_cases open_ : env.writable .pdnsd = true
    · rw [if_pos ⟨nofun, open_⟩, if_pos ⟨nofun, open_⟩]
      simp only [open_, if_true]
      refine (printTo_ended env .pdnsd _ t fun t' before files => ?_).cast (if_pos open_) (if_pos open_)
      refine (startProcess_ended _ _ _ t').cast ?_ rfl
      rw [List.map_singleton, files, Function.update_self, pdnsdLaunch, ipv6, Option.getD_some]
    · rw [if_neg (fun both => open_ both.2), if_neg (fun both => open_ both.2)]
      simp only [open_]
      exact .killed (.refl t)

theorem startDnsDaemon_ended (res : Resources) (env : Env) {s : Service} (held : s.config.isSome) :
    Ended s (if pdnsdEnd env s = .returns then [pdnsdLaunch res s.pdnsdConfig] else []) (pdnsdEnd env s)
      (startDnsDaemon res env s) := by
  obtain ⟨first, captured⟩ := captured_some s.pdnsd held
  have object : s.pdnsdConfig = s.objects first := by rw [Service.pdnsdConfig, captured]; rfl
  have quiet : Quiet s { s with pdnsd := s.pdnsd <|> s.config, pdnsdProcess := true } [] := by
    refine ⟨rfl, rfl, rfl, rfl, rfl, ?_, (List.append_nil _).symm⟩
    rw [captured]
    rfl
  rw [startDnsDaemon, java_bind_ok (rfl : createPdnsd s = .ok () { s with pdnsd := s.pdnsd <|> s.config, pdnsdProcess := true })]
  refine (quiet.ended (startPdnsd_ended res env captured)).cast ?_ ?_
  · rw [pdnsdEnd, object]
    split_ifs <;> simp_all
  · rw [pdnsdEnd, object]

/-- `ss-tunnel` is started with the current configuration. -/
theorem startDnsTunnel_ended (env : Env) {s : Service} (held : s.config.isSome) :
    Ended s (if env.writable .ssTunnel then [ssTunnelLaunch s.cfg] else [])
      (if env.writable .ssTunnel then .returns else .throws) (startDnsTunnel env s) := by
  rw [startDnsTunnel, java_bind_ok (currentConfig_run held)]
  refine printTo_ended env .ssTunnel _ s fun t _ files => ?_
  rw [java_bind_ok (rfl : (modify fun s => { s with sstunnelProcess := true } : Java Unit) t =
    .ok () { t with sstunnelProcess := true })]
  have quiet : Quiet t { t with sstunnelProcess := true } [] := ⟨rfl, rfl, rfl, rfl, rfl, rfl, (List.append_nil _).symm⟩
  refine (quiet.ended (startProcess_ended _ _ _ _)).cast ?_ rfl
  rw [List.nil_append, List.map_singleton, files, Function.update_self, ssTunnelLaunch]

theorem Quiet.pdnsdEnd_eq {env : Env} {s s' : Service} {launches : List Launch} (quiet : Quiet s s' launches) :
    pdnsdEnd env s' = pdnsdEnd env s := by
  rw [pdnsdEnd, quiet.pdnsdConfig_eq, pdnsdEnd]

/-- How the three daemons together end. -/
def daemonsEnd (env : Env) (s : Service) : End :=
  (localEnd env s).andThen ((pdnsdEnd env s).andThen (if env.writable .ssTunnel then .returns else .throws))

/-- What the daemons start. -/
def daemonsLaunches (res : Resources) (env : Env) (s : Service) : List Launch :=
  (if localEnd env s = .returns then [ssLocalLaunch s.localConfig (localFiles res s)] else []) ++
    if localEnd env s = .returns then
      (if pdnsdEnd env s = .returns then [pdnsdLaunch res s.pdnsdConfig] else []) ++
        if pdnsdEnd env s = .returns then if env.writable .ssTunnel then [ssTunnelLaunch s.cfg] else [] else []
    else []

/-- The three daemons in their order. -/
theorem daemons_ended (res : Resources) (env : Env) {s : Service} (held : s.config.isSome) :
    Ended s (daemonsLaunches res env s) (daemonsEnd env s)
      ((do startShadowsocksDaemon res env; startDnsDaemon res env; startDnsTunnel env : Java Unit) s) := by
  refine (startShadowsocksDaemon_ended res env held).bind fun _ s₁ quiet₁ => ?_
  have held₁ : s₁.config.isSome := by rwa [quiet₁.config]
  rw [← quiet₁.pdnsdEnd_eq, ← quiet₁.pdnsdConfig_eq, ← quiet₁.cfg_eq]
  refine (startDnsDaemon_ended res env held₁).bind fun _ s₂ quiet₂ => ?_
  rw [← quiet₂.cfg_eq]
  exact startDnsTunnel_ended env (by rwa [quiet₂.config])

/-! ## The interface -/

/-- The service after `stopRunner`. -/
def Service.afterStop (env : Env) (s : Service) : Service :=
  { (s.post .stopping).post .stopped with
    vpnThread := false, sslocalProcess := false, sstunnelProcess := false, tun2socksProcess := false
    pdnsdProcess := false, kcptunProcess := false, conn := if env.close then none else s.conn }

/-- `stopRunner` always returns. -/
theorem stopRunner_run (env : Env) (s : Service) : stopRunner env s = .ok () (s.afterStop env) := rfl

/-- `tun2socks` as `startVpn` starts it. -/
def tun2socksLaunch (config : SsConfig) (fd : Nat) (ipv6 udpdns : Bool) : Launch :=
  { program := .tun2socks, cmd := (tun2socksCmd config.localPort fd ipv6 udpdns).splitOn ' ', files := [] }

/-- The result of `startVpn`, from the state in which it is connecting. -/
def vpnResult (env : Env) (s : Service) : EStateM.Result Throwable Service Int :=
  match s.cfg.ipv6 with
  | none => .error .nullPointer s
  | some ipv6 =>
    match env.establish with
    | .fails => .error .uncaught s
    | .null => .ok (-1) ({ s with conn := none }.afterStop env)
    | .illegalState => .ok (-1) ({ s.post .stopped with conn := none }.afterStop env)
    | .descriptor fd =>
      match s.cfg.udpdns with
      | none => .error .nullPointer { s with conn := some fd }
      | some udpdns => .ok fd { s with
          conn := some fd, tun2socksProcess := true, launched := s.launched ++ [tun2socksLaunch s.cfg fd ipv6 udpdns] }

/-- `startVpn` posts CONNECTING again before it asks for the interface. -/
theorem startVpn_run (env : Env) {s : Service} (held : s.config.isSome) :
    startVpn env s = vpnResult env (s.post .connecting) := by
  have current := currentConfig_run (s := s.post .connecting) held
  rw [startVpn, java_bind_ok (rfl : changeState .connecting s = .ok () (s.post .connecting)), java_bind_ok current]
  unfold vpnResult
  generalize s.post .connecting = t
  cases t.cfg.ipv6 with
  | none => rfl
  | some ipv6 =>
    cases env.establish with
    | fails => rfl
    | null => rfl
    | illegalState => rfl
    | descriptor fd =>
      cases t.cfg.udpdns with
      | none => rfl
      | some udpdns => rfl

/-- The states in which a start may leave the service: connected, or stopped with nothing held. -/
structure Settled (s : Service) : Prop where
  last : s.posted.getLast? = some .connected ∨ s.posted.getLast? = some .stopped
  released : s.posted.getLast? = some .stopped →
    s.sslocalProcess = false ∧ s.sstunnelProcess = false ∧ s.tun2socksProcess = false ∧ s.pdnsdProcess = false ∧
      s.kcptunProcess = false ∧ s.conn = none ∧ s.vpnThread = false

/-- A method that returns or throws leaves the service settled. -/
def Settles {α : Type} : EStateM.Result Throwable Service α → Prop
  | .error .killed _ => True
  | .ok _ s | .error _ s => Settled s

@[simp] theorem Service.getLast_post (s : Service) (status : Status) : (s.post status).posted.getLast? = some status :=
  List.getLast?_concat

/-- CONNECTED may be the last status. -/
theorem settled_connected (s : Service) : Settled (s.post .connected) :=
  ⟨.inl (s.getLast_post _), fun stopped => by simp at stopped⟩

/-- STOPPED may be the last one if the interface is closed, or there was none. -/
theorem settled_afterStop (env : Env) (s : Service) : Settled (s.afterStop env) ↔ s.conn = none ∨ env.close = true := by
  have last : (s.afterStop env).posted.getLast? = some .stopped := (s.post .stopping).getLast_post .stopped
  constructor
  · intro settled
    have released : (if env.close then none else s.conn) = none := (settled.released last).2.2.2.2.2.1
    split at released
    · exact .inr ‹_›
    · exact .inl released
  · intro closes
    refine ⟨.inr last, fun _ => ⟨rfl, rfl, rfl, rfl, rfl, ?_, rfl⟩⟩
    show (if env.close then none else s.conn) = none
    rcases closes with none_ | closed
    · rw [none_, ite_self]
    · rw [if_pos closed]

/-- An exception on the thread leaves CONNECTING behind. -/
theorem not_settles_throw {α : Type} {e : Throwable} {s : Service} (alive : e ≠ .killed)
    (posted : s.posted.getLast? = some .connecting) : ¬ Settles (.error e s : EStateM.Result Throwable Service α) := by
  intro settles
  have settled : Settled s := by
    cases e with
    | killed => exact absurd rfl alive
    | nullPointer => exact settles
    | uncaught => exact settles
  rcases settled.last with last | last <;> · rw [posted] at last; cases last

/-- The end of `startRunner`. -/
def conclude (env : Env) (handled : Bool) : Java Unit :=
  if handled then changeState .connected
  else do
    changeState .stopped
    stopRunner env

theorem conclude_connected (env : Env) (s : Service) : Settles (conclude env true s) := settled_connected s

theorem conclude_stopped (env : Env) (s : Service) :
    Settles (conclude env false s) ↔ s.conn = none ∨ env.close = true := settled_afterStop env (s.post .stopped)

/-- Once the daemons run, the interface leads to a settled state. -/
def VpnSettles (env : Env) (config : SsConfig) : Prop :=
  config.ipv6 ≠ none ∧
    match env.establish with
    | .fails => False
    | .null | .illegalState => True
    | .descriptor fd => config.udpdns ≠ none ∧ (sendFd env fd = true ∨ env.close = true)

/-- From `startVpn` on, the run settles if its environment lets it. -/
theorem startVpn_settles_iff (env : Env) {s : Service} (held : s.config.isSome) :
    Settles ((startVpn env >>= fun fd => conclude env (sendFd env fd)) s) ↔ VpnSettles env s.cfg := by
  have posted : (s.post .connecting).posted.getLast? = some .connecting := s.getLast_post _
  have ran := startVpn_run env held
  unfold vpnResult at ran
  unfold VpnSettles
  have same : (s.post .connecting).cfg = s.cfg := rfl
  rw [same] at ran
  cases ipv6 : s.cfg.ipv6 with
  | none =>
    simp only [ipv6] at ran
    rw [java_bind_error ran]
    exact iff_of_false (not_settles_throw nofun posted) (fun both => both.1 rfl)
  | some ipv6' =>
    simp only [ipv6] at ran
    refine Iff.trans ?_ (and_iff_right nofun).symm
    cases establish : env.establish with
    | fails =>
      simp only [establish] at ran
      rw [java_bind_error ran]
      exact iff_of_false (not_settles_throw nofun posted) not_false
    | null =>
      simp only [establish] at ran
      rw [java_bind_ok ran]
      exact iff_of_true ((conclude_stopped env _).mpr (.inl (ite_self none))) trivial
    | illegalState =>
      simp only [establish] at ran
      rw [java_bind_ok ran]
      exact iff_of_true ((conclude_stopped env _).mpr (.inl (ite_self none))) trivial
    | descriptor fd =>
      simp only [establish] at ran
      cases udpdns : s.cfg.udpdns with
      | none =>
        simp only [udpdns] at ran
        rw [java_bind_error ran]
        exact iff_of_false (not_settles_throw nofun posted) (fun both => both.1 rfl)
      | some udpdns' =>
        simp only [udpdns] at ran
        rw [java_bind_ok ran]
        refine Iff.trans ?_ (and_iff_right nofun).symm
        cases sent : sendFd env fd with
        | true => exact iff_of_true (conclude_connected env _) (.inl rfl)
        | false =>
          refine (conclude_stopped env _).trans ?_
          simp

/-- From the daemons on. -/
theorem handleConnection_settles_iff (res : Resources) (env : Env) {s : Service} (held : s.config.isSome)
    (posted : s.posted.getLast? = some .connecting) :
    Settles ((handleConnection res env >>= conclude env) s) ↔
      daemonsEnd env s = .dies ∨ daemonsEnd env s = .returns ∧ VpnSettles env s.cfg := by
  have split_ : handleConnection res env >>= conclude env =
      (do startShadowsocksDaemon res env; startDnsDaemon res env; startDnsTunnel env) >>= fun _ =>
        startVpn env >>= fun fd => conclude env (sendFd env fd) := by
    simp only [handleConnection, bind_assoc, pure_bind]
  rw [split_]
  have ended := daemons_ended res env held
  generalize ran : (do startShadowsocksDaemon res env; startDnsDaemon res env; startDnsTunnel env : Java Unit) s = r at ended
  generalize daemonsEnd env s = e at ended
  cases ended with
  | @returned _ s' quiet =>
    rw [java_bind_ok ran, startVpn_settles_iff env (by rwa [quiet.config]), quiet.cfg_eq]
    simp
  | threw alive quiet =>
    rw [java_bind_error ran]
    exact iff_of_false (not_settles_throw alive (by rwa [quiet.posted])) (by simp)
  | killed quiet =>
    rw [java_bind_error ran]
    exact iff_of_true trivial (.inl rfl)

/-! ## The server's address -/

/-- The value of `resolved`, unless the resolution throws. -/
def resolution (env : Env) (host : Option Text) : Option Bool :=
  if isLiteralIpAddress env host then some true
  else host.bind fun host => (env.lookupA host).bind fun address =>
    if address.isEmpty then (env.lookup host).map fun address => !address.isEmpty else some true

/-- The host that the config has afterwards. -/
def resolvedHost (env : Env) (host : Option Text) : Option Text :=
  if isLiteralIpAddress env host then host
  else if (host.bind env.lookupA).all List.isEmpty then host
  else host.bind env.lookupAgain

/-- The service with another host in its config. -/
def Service.withHost (s : Service) (host : Option Text) : Service :=
  { s with
    objects := match s.config with
      | some ref => Function.update s.objects ref { s.cfg with host := host }
      | none => s.objects }

/-- The host that is stored back is the one that was there. -/
theorem Service.withHost_self (s : Service) : s.withHost s.cfg.host = s := by
  have same : (match s.config with
      | some ref => Function.update s.objects ref { s.cfg with host := s.cfg.host }
      | none => s.objects) = s.objects := by
    cases config : s.config with
    | none => rfl
    | some ref =>
      have object : s.cfg = s.objects ref := by rw [Service.cfg, config]; rfl
      rw [object]
      exact Function.update_eq_self ref s.objects
  rw [Service.withHost, same]

section
variable {s : Service} (host : Option Text)

/-- The resolved address replaces the host in the current configuration. -/
theorem Service.withHost_cfg (held : s.config.isSome) : (s.withHost host).cfg = { s.cfg with host } := by
  obtain ⟨ref, config⟩ := Option.isSome_iff_exists.mp held
  have config' : (s.withHost host).config = some ref := config
  rw [Service.cfg, config', Option.map_some, Option.getD_some, Service.withHost, config]
  exact Function.update_self ref _ s.objects

/-- Another config has the new host only if it is the same object. -/
theorem Service.withHost_object (r : Nat) : ∃ host', (s.withHost host).objects r = { s.objects r with host := host' } := by
  cases config : s.config with
  | none => exact ⟨(s.objects r).host, by rw [Service.withHost, config]⟩
  | some ref =>
    have object : s.cfg = s.objects ref := by rw [Service.cfg, config]; rfl
    by_cases same : r = ref
    · refine ⟨host, ?_⟩
      rw [Service.withHost, config, same, ← object]
      exact Function.update_self ref _ s.objects
    · refine ⟨(s.objects r).host, ?_⟩
      rw [Service.withHost, config]
      exact Function.update_of_ne same _ s.objects

/-- A captured object has a new host if it is the current one. -/
theorem Service.withHost_localConfig : ∃ host', (s.withHost host).localConfig = { s.localConfig with host := host' } := by
  have captured : ((s.withHost host).ssLocal <|> (s.withHost host).config) = (s.ssLocal <|> s.config) := rfl
  rw [Service.localConfig, captured, Service.localConfig]
  cases s.ssLocal <|> s.config with
  | none => exact ⟨_, rfl⟩
  | some r => exact s.withHost_object host r

theorem Service.withHost_pdnsdConfig : ∃ host', (s.withHost host).pdnsdConfig = { s.pdnsdConfig with host := host' } := by
  have captured : ((s.withHost host).pdnsd <|> (s.withHost host).config) = (s.pdnsd <|> s.config) := rfl
  rw [Service.pdnsdConfig, captured, Service.pdnsdConfig]
  cases s.pdnsd <|> s.config with
  | none => exact ⟨_, rfl⟩
  | some r => exact s.withHost_object host r

end

/-- Resolving fails with an exception, with a message, or stores the address. -/
theorem resolveServer_run (env : Env) {s : Service} (held : s.config.isSome) :
    resolveServer env s =
      match resolution env s.cfg.host with
      | none => .error .nullPointer s
      | some resolved => .ok resolved (s.withHost (resolvedHost env s.cfg.host)) := by
  rw [resolveServer, java_bind_ok (currentConfig_run held), resolution, resolvedHost]
  by_cases literal : isLiteralIpAddress env s.cfg.host = true
  · simp only [literal, if_true, s.withHost_self]
    rfl
  · simp only [literal, Bool.false_eq_true, if_false]
    have unchanged := s.withHost_self
    cases host : s.cfg.host with
    | none => rfl
    | some h =>
      rw [host] at unchanged
      rw [java_bind_ok (rfl : deref (some h) s = .ok h s)]
      simp only [Option.bind_some]
      cases env.lookupA h with
      | none => rfl
      | some address =>
        rw [java_bind_ok (rfl : deref (some address) s = .ok address s)]
        simp only [Option.all_some, Option.bind_some]
        split
        · cases env.lookup h with
          | none => rfl
          | some address' =>
            rw [unchanged]
            rfl
        · rfl

/-! ## `startRunner` -/

/-- The files that `startShadowsocksDaemon` needs can be written. -/
def Written (env : Env) (s : Service) : Prop :=
  (s.cfg.route = some Route.all ∨ env.writable .acl = true) ∧ env.writable .ssLocal = true

/-- A thread of a process wrapper throws. -/
def Killed (env : Env) (s : Service) : Prop :=
  s.localConfig.auth = none ∨ s.pdnsdConfig.ipv6 = none ∨ env.writable .pdnsd = false

/-- How the daemons end, by what can be written. -/
theorem daemonsEnd_iff (env : Env) (s : Service) (rest : Prop) :
    daemonsEnd env s = .dies ∨ daemonsEnd env s = .returns ∧ rest ↔
      Written env s ∧ (Killed env s ∨ env.writable .ssTunnel = true ∧ rest) := by
  unfold daemonsEnd localEnd pdnsdEnd Written Killed
  by_cases acl : s.cfg.route = some Route.all ∨ env.writable .acl = true
  · rw [if_pos acl]
    by_cases conf : env.writable .ssLocal = true
    · rw [if_pos conf]
      refine Iff.trans ?_ (and_iff_right ⟨acl, conf⟩).symm
      cases s.localConfig.auth with
      | none => simp [End.andThen]
      | some auth =>
        cases s.pdnsdConfig.ipv6 with
        | none => simp [End.andThen]
        | some ipv6 => cases env.writable .pdnsd <;> cases env.writable .ssTunnel <;> simp [End.andThen]
    · rw [if_neg conf]
      exact iff_of_false (by simp [End.andThen]) (fun both => conf both.1.2)
  · rw [if_neg acl]
    exact iff_of_false (by simp [End.andThen]) (fun both => acl both.1.1)

/-- A start with the config of `s` settles. -/
def SettlesWhen (env : Env) (s : Service) : Prop :=
  s.config.isSome ∧
    match resolution env s.cfg.host with
    | none => False
    | some false => s.conn = none ∨ env.close = true
    | some true => Written env s ∧ (Killed env s ∨ env.writable .ssTunnel = true ∧ VpnSettles env s.cfg)

/-- The service as `startRunner` has it before the resolution. -/
def Service.begun (s : Service) (c : Option Nat) : Service :=
  { s.post .connecting with
    config := c, vpnThread := true, sslocalProcess := false, sstunnelProcess := false, tun2socksProcess := false
    pdnsdProcess := false, kcptunProcess := false }

/-- `startRunner` with a configuration, from its first post on. -/
theorem startRunner_run (res : Resources) (env : Env) (ref : Nat) (s : Service) :
    startRunner res env (some ref) s =
      (resolveServer env >>= fun resolved =>
        if resolved then handleConnection res env >>= conclude env else conclude env false) (s.begun (some ref)) := rfl

/-- From the resolution of the server on. -/
theorem begun_settles_iff (res : Resources) (env : Env) {t : Service} (held : t.config.isSome)
    (posted : t.posted.getLast? = some .connecting) :
    Settles ((resolveServer env >>= fun resolved =>
      if resolved then handleConnection res env >>= conclude env else conclude env false) t) ↔ SettlesWhen env t := by
  refine Iff.trans ?_ (and_iff_right held).symm
  have ran := resolveServer_run env held
  cases resolved : resolution env t.cfg.host with
  | none =>
    simp only [resolved] at ran
    rw [java_bind_error ran]
    exact iff_of_false (not_settles_throw nofun posted) not_false
  | some found =>
    simp only [resolved] at ran
    rw [java_bind_ok ran]
    cases found with
    | false => exact conclude_stopped env _
    | true =>
      have handled := handleConnection_settles_iff res env (s := t.withHost (resolvedHost env t.cfg.host)) held posted
      refine handled.trans ?_
      rw [daemonsEnd_iff]
      obtain ⟨_, localConfig⟩ := t.withHost_localConfig (resolvedHost env t.cfg.host)
      obtain ⟨_, pdnsdConfig⟩ := t.withHost_pdnsdConfig (resolvedHost env t.cfg.host)
      unfold Written Killed VpnSettles
      rw [localConfig, pdnsdConfig, Service.withHost_cfg _ held]

/-- A start settles exactly where its config and the answers lead it through. -/
theorem startRunner_settles_iff (res : Resources) (env : Env) (c : Option Nat) (s : Service) :
    Settles (startRunner res env c s) ↔ SettlesWhen env { s with config := c } := by
  cases c with
  | none =>
    refine iff_of_false (fun settles : Settled _ => ?_) (fun both => Bool.false_ne_true both.1)
    rcases settles.last with last | last <;> · rw [Service.getLast_post] at last; cases last
  | some ref =>
    rw [startRunner_run]
    exact begun_settles_iff res env rfl (s.getLast_post .connecting)

/-- A start without a config leaves even a fresh service connecting. -/
theorem nullConfig_connecting :
    ¬ ∀ (res : Resources) (env : Env) (c : Option Nat) (s : Service), Settles (startRunner res env c s) := by
  intro all
  have settled : Settled _ := all
    { privateRoute := [], chnRoute := [], reject := [], blackList := [] }
    { isNumeric := fun _ => true, lookupA := fun _ => none, lookupAgain := fun _ => none, lookup := fun _ => none
      writable := fun _ => true, establish := .descriptor 40, sendfd := fun _ => true, close := true }
    none {}
  exact absurd settled.last (by decide)

end Shadowsocks.Vpn
