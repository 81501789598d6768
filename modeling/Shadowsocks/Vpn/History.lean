import Shadowsocks.Lib.Machine
import Shadowsocks.Vpn.Launch

/-!
# Histories of starts and stops

What a start launches depends on the calls before it only through the objects passed and
the config that the singletons keep. `Past` records these two from the calls alone, and a
run of the service goes along with the run of `Past`: a start launches what is meant iff
the configs passed so far fit.
-/

namespace Shadowsocks.Vpn
open Lib
set_option autoImplicit false

/-! ## What a start leaves -/

/-- The fields of a config that a start never changes. -/
def SsConfig.hostless (c : SsConfig) : SsConfig := { c with host := none }

/-- The settings that the daemons read. -/
theorem hostless_fields {c c' : SsConfig} (same : c.hostless = c'.hostless) :
    c.auth = c'.auth ∧ c.ipv6 = c'.ipv6 ∧ c.route = c'.route := by
  simp only [SsConfig.hostless, SsConfig.mk.injEq, true_and] at same
  exact ⟨same.2.2.2.2.2.2.1, same.2.2.2.2.2.2.2, same.2.2.2.2.1⟩

/-- What is left of a service for later starts: the configs of the two singletons, and the
objects but for their hosts. -/
abbrev Lasting := Option Nat × Option Nat × (Nat → SsConfig)

/-- What a start leaves behind for the starts after it. -/
def Service.lasting (s : Service) : Lasting := (s.ssLocal, s.pdnsd, fun ref => (s.objects ref).hostless)

/-- The same once both singletons are created. -/
def Service.captured (s : Service) : Lasting :=
  (s.ssLocal <|> s.config, s.pdnsd <|> s.config, fun ref => (s.objects ref).hostless)

/-- A method leaves `kept` behind, whether it returns or throws. -/
def Lasts {α : Type} (kept : Lasting) : EStateM.Result Throwable Service α → Prop
  | .error .killed _ => False
  | .ok _ s | .error _ s => s.lasting = kept

/-- What lasts through the first part lasts if it lasts through the second. -/
theorem Lasts.bind {α β : Type} {kept : Lasting} {m : Java α} {k : α → Java β} {s : Service} (first : Lasts kept (m s))
    (rest : ∀ a s', m s = .ok a s' → s'.lasting = kept → Lasts kept (k a s')) : Lasts kept ((m >>= k) s) := by
  cases ran : m s with
  | ok a s' =>
    rw [ran] at first
    rw [java_bind_ok ran]
    exact rest a s' ran first
  | error e s' =>
    rw [ran] at first
    rw [java_bind_error ran]
    cases e with
    | killed => exact first
    | nullPointer => exact first
    | uncaught => exact first

/-- The file is written, or its writer is null. -/
theorem printTo_run (env : Env) (file : File) (content : Text) (s : Service) :
    printTo env file content s =
      if env.writable file then .ok () { s with files := Function.update s.files file (some content) }
      else .error .nullPointer s := by
  unfold printTo
  split <;> rfl

/-- `startShadowsocksDaemon` creates its process once both files are written. -/
theorem startShadowsocksDaemon_written (res : Resources) {env : Env} {s : Service} (held : s.config.isSome)
    (written : Written env s) :
    startShadowsocksDaemon res env s = (createSsLocal >>= fun _ => startSsLocal) { s with files := localFiles res s } := by
  have conf : ∀ t : Service, printTo env .ssLocal (println (shadowsocksConf s.cfg s.cfg.localPort)) t = .ok () _ :=
    fun t => (printTo_run _ _ _ t).trans (if_pos written.2)
  rw [startShadowsocksDaemon, java_bind_ok (currentConfig_run held), localFiles]
  by_cases all : s.cfg.route = some Route.all
  · rw [if_neg (not_not_intro all), if_pos all]
    exact java_bind_ok (conf s)
  · have acl := (printTo_run env .acl ((aclLines res s.cfg.route).flatMap println) s).trans
      (if_pos (written.1.resolve_left all))
    rw [if_pos all, java_bind_ok acl, if_neg all]
    exact java_bind_ok (conf _)

/-- Before that, it has done nothing that lasts. -/
theorem startShadowsocksDaemon_refused (res : Resources) {env : Env} {s : Service} (held : s.config.isSome)
    (refused : ¬ Written env s) :
    ∃ files, startShadowsocksDaemon res env s = .error .nullPointer { s with files := files } := by
  rw [startShadowsocksDaemon, java_bind_ok (currentConfig_run held)]
  by_cases acl : s.cfg.route = some Route.all ∨ env.writable .acl = true
  · have conf : ∀ t : Service, printTo env .ssLocal (println (shadowsocksConf s.cfg s.cfg.localPort)) t =
        .error .nullPointer t := fun t => (printTo_run _ _ _ t).trans (if_neg fun open_ => refused ⟨acl, open_⟩)
    by_cases all : s.cfg.route = some Route.all
    · rw [if_neg (not_not_intro all)]
      exact ⟨s.files, java_bind_error (conf s)⟩
    · have list := (printTo_run env .acl ((aclLines res s.cfg.route).flatMap println) s).trans
        (if_pos (acl.resolve_left all))
      rw [if_pos all, java_bind_ok list]
      exact ⟨_, java_bind_error (conf _)⟩
  · obtain ⟨bypass, closed⟩ := not_or.mp acl
    rw [if_pos bypass]
    exact ⟨s.files, java_bind_error ((printTo_run _ _ _ s).trans (if_neg closed))⟩

/-- `SsLocalProcess` keeps the config of the first start that gets here. -/
theorem startSsLocal_run {s : Service} (held : s.config.isSome) (auth : s.localConfig.auth ≠ none) :
    ∃ launched, (createSsLocal >>= fun _ => startSsLocal) s =
      .ok () { s with ssLocal := s.ssLocal <|> s.config, sslocalProcess := true, launched := launched } := by
  obtain ⟨first, captured⟩ := captured_some s.ssLocal held
  have object : s.localConfig = s.objects first := by rw [Service.localConfig, captured]; rfl
  rw [object] at auth
  obtain ⟨given, authEq⟩ := Option.ne_none_iff_exists'.mp auth
  rw [java_bind_ok (rfl : createSsLocal s = .ok () { s with ssLocal := s.ssLocal <|> s.config, sslocalProcess := true }),
    startSsLocal, java_bind_ok (rfl : (get : Java Service) _ = .ok _ _)]
  dsimp only
  rw [captured, java_bind_ok (rfl : (deref (some first) : Java Nat) _ = .ok first _), authEq]
  exact ⟨_, rfl⟩

/-- So does `PdnsdProcess`. -/
theorem startDnsDaemon_run (res : Resources) (env : Env) {s : Service} (held : s.config.isSome)
    (ipv6 : s.pdnsdConfig.ipv6 ≠ none) (open_ : env.writable .pdnsd = true) :
    ∃ files launched, startDnsDaemon res env s =
      .ok () { s with pdnsd := s.pdnsd <|> s.config, pdnsdProcess := true, files := files, launched := launched } := by
  obtain ⟨first, captured⟩ := captured_some s.pdnsd held
  have object : s.pdnsdConfig = s.objects first := by rw [Service.pdnsdConfig, captured]; rfl
  rw [object] at ipv6
  obtain ⟨given, ipv6Eq⟩ := Option.ne_none_iff_exists'.mp ipv6
  rw [startDnsDaemon, java_bind_ok (rfl : createPdnsd s = .ok () { s with pdnsd := s.pdnsd <|> s.config, pdnsdProcess := true }),
    startPdnsd, java_bind_ok (rfl : (get : Java Service) _ = .ok _ _)]
  dsimp only
  rw [captured, java_bind_ok (rfl : (deref (some first) : Java Nat) _ = .ok first _), ipv6Eq]
  simp only [open_, if_true]
  rw [java_bind_ok ((printTo_run _ _ _ _).trans (if_pos open_))]
  exact ⟨_, _, rfl⟩

theorem startDnsTunnel_lasts (env : Env) {s : Service} (held : s.config.isSome) :
    Lasts s.lasting (startDnsTunnel env s) := by
  rw [startDnsTunnel, java_bind_ok (currentConfig_run held)]
  have printed := printTo_run env .ssTunnel (println (shadowsocksConf s.cfg 8163)) s
  by_cases open_ : env.writable .ssTunnel = true
  · rw [if_pos open_] at printed
    rw [java_bind_ok printed]
    exact rfl
  · rw [if_neg open_] at printed
    rw [java_bind_error printed]
    exact rfl

/-- The daemons leave both singletons with a config, unless a file cannot be written or one
of their threads throws. -/
theorem daemons_lasts (res : Resources) {env : Env} {s : Service} (held : s.config.isSome) (written : Written env s)
    (alive : ¬ Killed env s) :
    Lasts s.captured ((do startShadowsocksDaemon res env; startDnsDaemon res env; startDnsTunnel env : Java Unit) s) := by
  obtain ⟨auth, pdnsd⟩ := not_or.mp alive
  obtain ⟨ipv6, open_⟩ := not_or.mp pdnsd
  obtain ⟨launched, local_⟩ := startSsLocal_run (s := { s with files := localFiles res s }) held auth
  rw [java_bind_ok ((startShadowsocksDaemon_written res held written).trans local_)]
  obtain ⟨files, launched', dns⟩ := startDnsDaemon_run res env
    (s := { s with files := localFiles res s, ssLocal := s.ssLocal <|> s.config, sslocalProcess := true, launched := launched })
    held ipv6 (by simpa using open_)
  rw [java_bind_ok dns]
  exact startDnsTunnel_lasts env held

/-- The application is killed by a start whose files can be written. -/
theorem daemons_killed (res : Resources) {env : Env} {s : Service} (held : s.config.isSome) (written : Written env s)
    (killed : Killed env s) :
    ∃ t, (do startShadowsocksDaemon res env; startDnsDaemon res env; startDnsTunnel env : Java Unit) s = .error .killed t := by
  have dies : daemonsEnd env s = .dies := by
    have ends := (daemonsEnd_iff env s False).mpr ⟨written, .inl killed⟩
    simpa using ends
  have ended := daemons_ended res env held
  rw [dies] at ended
  generalize (do startShadowsocksDaemon res env; startDnsDaemon res env; startDnsTunnel env : Java Unit) s = r at ended
  cases ended with
  | killed quiet => exact ⟨_, rfl⟩

theorem conclude_lasts (env : Env) (handled : Bool) (s : Service) : Lasts s.lasting (conclude env handled s) := by
  cases handled with
  | true => exact rfl
  | false => exact rfl

/-- The interface has no part in what lasts. -/
theorem startVpn_lasts (env : Env) {s : Service} (held : s.config.isSome) : Lasts s.lasting (startVpn env s) := by
  rw [startVpn_run env held, vpnResult]
  split
  · exact rfl
  · split
    · exact rfl
    · exact rfl
    · exact rfl
    · split
      · exact rfl
      · exact rfl

section
variable (res : Resources) (env : Env) {s : Service}

/-- Resolving changes the host only, which does not last. -/
theorem withHost_lasting (host : Option Text) : (s.withHost host).lasting = s.lasting := by
  have objects : (fun ref => ((s.withHost host).objects ref).hostless) = fun ref => (s.objects ref).hostless := by
    funext ref
    obtain ⟨host', object⟩ := s.withHost_object host ref
    rw [object]
    rfl
  rw [Service.lasting, objects]
  rfl

theorem withHost_captured (host : Option Text) : (s.withHost host).captured = s.captured := by
  have lasting := withHost_lasting (s := s) host
  simp only [Service.lasting, Prod.mk.injEq] at lasting
  rw [Service.captured, lasting.2.2]
  rfl

theorem handleConnection_split :
    handleConnection res env =
      (do startShadowsocksDaemon res env; startDnsDaemon res env; startDnsTunnel env) >>= fun _ =>
        startVpn env >>= fun fd => pure (sendFd env fd) := by
  simp only [handleConnection, bind_assoc]

/-- A null flag of the captured configuration ends the process of the service. -/
theorem handleConnection_killed (held : s.config.isSome) (written : Written env s) (killed : Killed env s) :
    ∃ t, handleConnection res env s = .error .killed t := by
  obtain ⟨t, dies⟩ := daemons_killed res held written killed
  rw [handleConnection_split]
  exact ⟨t, java_bind_error dies⟩

/-- A start that comes to the daemons captures the configuration, if none is captured yet. -/
theorem handleConnection_lasts (held : s.config.isSome) (written : Written env s) (alive : ¬ Killed env s) :
    Lasts s.captured (handleConnection res env s) := by
  rw [handleConnection_split]
  refine (daemons_lasts res held written alive).bind fun _ s' ran lasting => ?_
  have quiet := (daemons_ended res env held).quiet
  rw [ran] at quiet
  rw [← lasting]
  exact (startVpn_lasts env (by rwa [← quiet.config] at held)).bind fun _ _ _ kept => kept

/-- A start whose files cannot be written does not come to the daemons. -/
theorem handleConnection_refused (held : s.config.isSome) (refused : ¬ Written env s) :
    Lasts s.lasting (handleConnection res env s) := by
  obtain ⟨files, throws⟩ := startShadowsocksDaemon_refused res held refused
  rw [handleConnection, java_bind_error throws]
  exact rfl

end

/-! ## `startRunner` and the calls before it -/

section
variable (res : Resources) (env : Env) {ref : Nat} {s : Service}

/-- Where the server is resolved, `startRunner` goes on with the daemons. -/
theorem startRunner_resolved (resolved : resolution env (s.objects ref).host = some true) :
    startRunner res env (some ref) s =
      (handleConnection res env >>= conclude env) ((s.begun (some ref)).withHost (resolvedHost env (s.objects ref).host)) := by
  have ran := resolveServer_run env (s := s.begun (some ref)) rfl
  have host : (s.begun (some ref)).cfg.host = (s.objects ref).host := rfl
  rw [host, resolved] at ran
  rw [startRunner_run, java_bind_ok ran]
  rfl

/-- Otherwise nothing of it lasts. -/
theorem startRunner_unresolved (unresolved : resolution env (s.objects ref).host ≠ some true) :
    Lasts s.lasting (startRunner res env (some ref) s) := by
  have ran := resolveServer_run env (s := s.begun (some ref)) rfl
  have host : (s.begun (some ref)).cfg.host = (s.objects ref).host := rfl
  rw [host] at ran
  rw [startRunner_run]
  cases found : resolution env (s.objects ref).host with
  | none =>
    rw [found] at ran
    rw [java_bind_error ran]
    exact rfl
  | some found' =>
    rw [found] at ran
    rw [java_bind_ok ran]
    cases found' with
    | true => exact absurd found unresolved
    | false =>
      have lasting : ((s.begun (some ref)).withHost (resolvedHost env (s.objects ref).host)).lasting = s.lasting :=
        withHost_lasting _
      rw [← lasting]
      exact conclude_lasts env false _

end

/-! ## Histories -/

/-- A call of the binder, with what unmarshalling gives. -/
inductive Call where
  /-- `start` with an object, whose fields have these values at the time of the call. -/
  | start (env : Env) (c : Option (Nat × SsConfig))
  | stop (env : Env)

/-- The service with what has been passed to `start`. -/
def Service.receive (s : Service) (c : Option (Nat × SsConfig)) : Service :=
  match c with
  | none => s
  | some (ref, value) => { s with objects := Function.update s.objects ref value }

/-- The application goes on unless it is killed. -/
def goesOn : EStateM.Result Throwable Service Unit → Except Throwable Service
  | .error .killed _ => .error .killed
  | .ok _ s | .error _ s => .ok s

/-- Calls that are executed one after the other. -/
def calls (res : Resources) : Machine Service Call Throwable where
  enabled _ _ := true
  fire s
    | .start env c => goesOn (startRunner res env (c.map Prod.fst) (s.receive c))
    | .stop env => goesOn (stopRunner env s)

/-- What a start is to launch: nothing where its server is not resolved, else what the
values of its config mean, with the address that was found. -/
def intended (res : Resources) (env : Env) : Option SsConfig → List Launch
  | none => []
  | some c =>
    if resolution env c.host = some true then meant res env { c with host := resolvedHost env c.host } else []

/-- A start launches what the values of its config determine. -/
def Configured (res : Resources) (s : Service) : Call → Prop
  | .start env c => Launches (s.receive c) (intended res env (c.map Prod.snd)) (startRunner res env (c.map Prod.fst) (s.receive c))
  | .stop _ => True

/-! ## What the configs passed so far say

Nothing below looks at a service: the objects are those passed to `start`, and the first
one that gets as far as `ss-local` is kept.
-/

/-- The configs passed so far. -/
structure Past where
  objects : Nat → SsConfig := fun _ => {}
  /-- The config of the first start that got as far as `ss-local`. -/
  first : Option Nat := none

namespace Past
variable (p : Past)

/-- `start` unmarshals its argument into an object, a new one or one that is known. -/
def receive (ref : Nat) (c : SsConfig) : Past := { p with objects := Function.update p.objects ref c }

/-- The config that a start with `ref` uses for the singletons. -/
def kept (ref : Nat) : SsConfig := p.objects (p.first.getD ref)

end Past

/-- A start with `c` gets as far as `ss-local`: its server is resolved, and the files before
that can be written. -/
def Reaches (env : Env) (c : SsConfig) : Prop :=
  resolution env c.host = some true ∧ (c.route = some Route.all ∨ env.writable .acl = true) ∧ env.writable .ssLocal = true

instance (env : Env) (c : SsConfig) : Decidable (Reaches env c) := inferInstanceAs (Decidable (_ ∧ _ ∧ _))

/-- A thread of a process wrapper throws with the config kept, which ends the application. -/
def Fatal (env : Env) (kept : SsConfig) : Prop := kept.auth = none ∨ kept.ipv6 = none ∨ env.writable .pdnsd = false

instance (env : Env) (kept : SsConfig) : Decidable (Fatal env kept) := inferInstanceAs (Decidable (_ ∨ _ ∨ _))

/-- The calls as far as they concern the configs. -/
def history : Machine Past Call Unit where
  enabled _ _ := true
  fire p
    | .start env (some (ref, c)) =>
      if Reaches env c then
        if Fatal env ((p.receive ref c).kept ref) then .error ()
        else .ok { p.receive ref c with first := some (p.first.getD ref) }
      else .ok (p.receive ref c)
    | .start _ none | .stop _ => .ok p

/-- The config passed fits the one kept, where its server is resolved. -/
def Suits (res : Resources) (p : Past) : Call → Prop
  | .start env (some (ref, c)) => resolution env c.host = some true → Fits res env ((p.receive ref c).kept ref) c
  | .start _ none | .stop _ => True

/-- A config with a literal as its route fits one that has the same fields: what goes wrong
takes an unmarshalled route or an earlier start with other values. -/
theorem Fits.of_literal {res : Resources} {env : Env} {kept c : SsConfig} (same : kept.hostless = c.hostless)
    (literal : c.route = c.byValue.route) : Fits res env kept c := by
  obtain ⟨auth, ipv6, route⟩ := hostless_fields same
  have startable := started_byValue env c
  have all : c.byValue.route = some Route.all ↔ c.routeText = some "all".toList := byValue_route_iff c _
  have direct := direct_byValue c
  rw [← literal] at startable all direct
  refine ⟨?_, fun _ => auth, fun _ => ?_, fun _ _ => .inl literal, fun _ _ => ipv6, fun _ _ _ => ?_⟩
  · rw [auth]
    exact startable
  · rw [route]
    exact all
  · rw [route]
    exact direct

/-! ## The service goes along with its past -/

/-- What is left of the service for later starts is what the calls say. -/
def Recalls (s : Service) (p : Past) : Prop := s.lasting = (p.first, p.first, fun ref => (p.objects ref).hostless)

section
variable {s : Service} {p : Past} (recalls : Recalls s p) (ref : Nat) (c : SsConfig)
include recalls

/-- The object that is received is the same for both. -/
theorem Recalls.receive : Recalls (s.receive (some (ref, c))) (p.receive ref c) := by
  simp only [Recalls, Service.lasting, Prod.mk.injEq] at recalls ⊢
  refine ⟨recalls.1, recalls.2.1, ?_⟩
  funext r
  show (Function.update s.objects ref c r).hostless = (Function.update p.objects ref c r).hostless
  by_cases same : r = ref
  · rw [same, Function.update_self, Function.update_self]
  · rw [Function.update_of_ne same, Function.update_of_ne same]
    exact congrFun recalls.2.2 r

/-- Once both singletons are created, they have the config kept. -/
theorem Recalls.captured (host : Option Text) :
    ((s.begun (some ref)).withHost host).captured =
      (some (p.first.getD ref), some (p.first.getD ref), fun r => (p.objects r).hostless) := by
  simp only [Recalls, Service.lasting, Prod.mk.injEq] at recalls
  have object : ∀ instance_ : Option Nat, instance_ = p.first → (instance_ <|> some ref) = some (p.first.getD ref) := by
    rintro _ rfl
    cases p.first <;> rfl
  rw [withHost_captured]
  show (s.ssLocal <|> some ref, s.pdnsd <|> some ref, fun r => (s.objects r).hostless) = _
  rw [object _ recalls.1, object _ recalls.2.1, recalls.2.2]

end

/-- The service in which the daemons of a start with `c` are run. -/
def Service.resolved (s : Service) (env : Env) (ref : Nat) (c : SsConfig) : Service :=
  ((s.receive (some (ref, c))).begun (some ref)).withHost (resolvedHost env c.host)

section
variable {s : Service} {p : Past} (recalls : Recalls s p) (env : Env) (ref : Nat) (c : SsConfig)

theorem receive_object (s : Service) : (s.receive (some (ref, c))).objects ref = c := by
  show Function.update s.objects ref c ref = c
  exact Function.update_self ref c s.objects

/-- The resolved address is in the configuration that `handleConnection` reads. -/
theorem resolved_cfg : (s.resolved env ref c).cfg = { c with host := resolvedHost env c.host } := by
  have given : ((s.receive (some (ref, c))).begun (some ref)).cfg = c := receive_object ref c s
  rw [Service.resolved, Service.withHost_cfg _ rfl, given]

/-- Two of the files decide, one of them only with a list. -/
theorem resolved_written : Written env (s.resolved env ref c) ↔
    (c.route = some Route.all ∨ env.writable .acl = true) ∧ env.writable .ssLocal = true := by
  unfold Written
  rw [resolved_cfg]

include recalls

/-- The first call that comes so far is the one whose object is captured. -/
theorem Recalls.resolved_captured : (s.resolved env ref c).captured =
    (some (p.first.getD ref), some (p.first.getD ref), fun r => ((p.receive ref c).objects r).hostless) :=
  (recalls.receive ref c).captured ref (resolvedHost env c.host)

/-- `ss-local` has the flags of the captured object. -/
theorem Recalls.resolved_local : (s.resolved env ref c).localConfig.hostless = ((p.receive ref c).kept ref).hostless := by
  have captured := recalls.resolved_captured env ref c
  simp only [Service.captured, Prod.mk.injEq] at captured
  rw [Service.localConfig, captured.1]
  exact congrFun captured.2.2 _

/-- Both daemons are created together. -/
theorem Recalls.resolved_pdnsd : (s.resolved env ref c).pdnsdConfig = (s.resolved env ref c).localConfig := by
  have captured := recalls.resolved_captured env ref c
  simp only [Service.captured, Prod.mk.injEq] at captured
  rw [Service.pdnsdConfig, captured.2.1, Service.localConfig, captured.1]

theorem Recalls.resolved_killed : Killed env (s.resolved env ref c) ↔ Fatal env ((p.receive ref c).kept ref) := by
  obtain ⟨auth, ipv6, -⟩ := hostless_fields (recalls.resolved_local env ref c)
  unfold Killed Fatal
  rw [recalls.resolved_pdnsd env ref c, auth, ipv6]

end

/-- Only the settings that the daemons read count. -/
theorem fits_congr {res : Resources} {env : Env} {kept kept' c : SsConfig} (host : Option Text)
    (same : kept.hostless = kept'.hostless) : Fits res env kept { c with host } ↔ Fits res env kept' c := by
  obtain ⟨auth, ipv6, route⟩ := hostless_fields same
  rw [fits_iff, fits_iff, auth, ipv6, route]
  rfl

/-- A start launches what is meant iff the configs passed so far suit it. -/
theorem configured_iff_suits (res : Resources) {s : Service} {p : Past} (recalls : Recalls s p) (call : Call) :
    Configured res s call ↔ Suits res p call := by
  cases call with
  | stop env => exact Iff.rfl
  | start env c =>
    cases c with
    | none => exact iff_of_true (List.append_nil _).symm trivial
    | some c =>
      obtain ⟨ref, c⟩ := c
      have launched := startRunner_launches res env ref (s.receive (some (ref, c)))
      have given : ((s.receive (some (ref, c))).begun (some ref)).cfg = c := receive_object ref c s
      rw [given] at launched
      show Launches _ (intended res env (some c)) (startRunner res env (some ref) _) ↔ (resolution env c.host = some true → _)
      unfold Launches at launched ⊢
      rw [launched, List.append_cancel_left_eq, intended]
      by_cases resolved : resolution env c.host = some true
      · rw [if_pos resolved, if_pos resolved, forall_prop_of_true resolved]
        have fits := daemonsStarted_eq_iff res env (recalls.resolved_pdnsd env ref c)
        rw [resolved_cfg, fits_congr _ (recalls.resolved_local env ref c)] at fits
        exact fits
      · rw [if_neg resolved, if_neg resolved]
        exact iff_of_true rfl (fun is => absurd is resolved)

/-! ## Whole histories -/

/-- A method that does not end the application leaves a service that goes along. -/
theorem Lasts.both {kept : Lasting} {p : Past} {r : EStateM.Result Throwable Service Unit} (lasts : Lasts kept r)
    (recalled : kept = (p.first, p.first, fun ref => (p.objects ref).hostless)) :
    Machine.Both Recalls (goesOn r) (.ok p : Except Unit Past) := by
  cases r with
  | ok _ s' => exact .go (Eq.trans lasts recalled)
  | error e s' =>
    cases e with
    | killed => exact absurd lasts not_false
    | nullPointer => exact .go (Eq.trans lasts recalled)
    | uncaught => exact .go (Eq.trans lasts recalled)

section
variable (res : Resources) {env : Env} {ref : Nat} {c : SsConfig} {s : Service} {p : Past} (recalls : Recalls s p)
include recalls

/-- A start that comes to the daemons with a fatal configuration ends the process. -/
theorem start_killed (reaches : Reaches env c) (fatal : Fatal env ((p.receive ref c).kept ref)) :
    ∃ t, startRunner res env (some ref) (s.receive (some (ref, c))) = .error .killed t := by
  have object := receive_object ref c s
  have written := (resolved_written (s := s) env ref c).mpr reaches.2
  have killed := (recalls.resolved_killed env ref c).mpr fatal
  obtain ⟨t, dies⟩ := handleConnection_killed res env (s := s.resolved env ref c) rfl written killed
  rw [startRunner_resolved res env (by rw [object]; exact reaches.1), object]
  exact ⟨t, java_bind_error dies⟩

/-- Without one it captures the object, if none is captured yet. -/
theorem start_captures (reaches : Reaches env c) (alive : ¬ Fatal env ((p.receive ref c).kept ref)) :
    Lasts (s.resolved env ref c).captured (startRunner res env (some ref) (s.receive (some (ref, c)))) := by
  have object := receive_object ref c s
  have written := (resolved_written (s := s) env ref c).mpr reaches.2
  have handled := handleConnection_lasts res env (s := s.resolved env ref c) rfl written
    (mt (recalls.resolved_killed env ref c).mp alive)
  rw [startRunner_resolved res env (by rw [object]; exact reaches.1), object]
  refine handled.bind fun done s' _ lasting => ?_
  rw [← lasting]
  exact conclude_lasts env done s'

omit recalls in
/-- A start that ends before the daemons captures nothing. -/
theorem start_passes (short : ¬ Reaches env c) :
    Lasts (s.receive (some (ref, c))).lasting (startRunner res env (some ref) (s.receive (some (ref, c)))) := by
  have object := receive_object ref c s
  by_cases resolved : resolution env c.host = some true
  · have refused := mt (resolved_written (s := s) env ref c).mp fun written => short ⟨resolved, written⟩
    have handled := handleConnection_refused res env (s := s.resolved env ref c) rfl refused
    rw [startRunner_resolved res env (by rw [object]; exact resolved), object]
    rw [show (s.resolved env ref c).lasting = (s.receive (some (ref, c))).lasting from withHost_lasting _] at handled
    refine handled.bind fun done s' _ lasting => ?_
    rw [← lasting]
    exact conclude_lasts env done s'
  · exact startRunner_unresolved res env (by rwa [object])

end

/-- The service goes along with what the calls say about the configs. -/
theorem calls_along (res : Resources) : Machine.Alongside (calls res) history Recalls where
  enabled _ _ _ _ := rfl
  fire s p call recalls _ := by
    cases call with
    | stop env => exact .go recalls
    | start env c =>
      cases c with
      | none => exact .go recalls
      | some c =>
        obtain ⟨ref, c⟩ := c
        show Machine.Both Recalls (goesOn (startRunner res env (some ref) (s.receive (some (ref, c)))))
          (if Reaches env c then
            if Fatal env ((p.receive ref c).kept ref) then .error ()
            else .ok { p.receive ref c with first := some (p.first.getD ref) }
          else .ok (p.receive ref c))
        by_cases reaches : Reaches env c
        · rw [if_pos reaches]
          by_cases fatal : Fatal env ((p.receive ref c).kept ref)
          · obtain ⟨t, killed⟩ := start_killed res recalls reaches fatal
            rw [if_pos fatal, killed]
            exact .stop _ _
          · rw [if_neg fatal]
            exact (start_captures res recalls reaches fatal).both (recalls.resolved_captured env ref c)
        · rw [if_neg reaches]
          exact (start_passes res reaches).both (recalls.receive ref c)

/-- Nothing but the text of the route is looked at. -/
theorem meant_byValue (res : Resources) (env : Env) (c : SsConfig) : meant res env c.byValue = meant res env c := by
  have text : c.byValue.routeText = c.routeText := by
    unfold SsConfig.byValue SsConfig.routeText
    rw [Option.map_map]
    rfl
  simp only [meant, ssLocalMeant, pdnsdMeant, Startable, SsConfig.ChinaDirect, text]
  rfl

/-- What is intended for a start depends on the values of its config alone. -/
theorem intended_congr {res : Resources} {env : Env} {c c' : Option SsConfig}
    (same : c.map SsConfig.byValue = c'.map SsConfig.byValue) : intended res env c = intended res env c' := by
  have values : ∀ c : Option SsConfig, intended res env (c.map SsConfig.byValue) = intended res env c := by
    intro c
    cases c with
    | none => rfl
    | some v =>
      show (if resolution env v.host = some true then
        meant res env (SsConfig.byValue { v with host := resolvedHost env v.host }) else []) = _
      rw [meant_byValue]
      rfl
  rw [← values c, same, values c']

/-- In a history, every start launches what the values of its config determine iff each
config passed suits the ones before it: it fits the one that the singletons keep. Then two
starts with the same values launch the same. -/
theorem launches_configured_iff (res : Resources) :
    (∀ es, (calls res).Throughout (Configured res) {} es ↔ history.Throughout (Suits res) {} es) ∧
      ∀ env c c' s s', c.map (fun c => c.2.byValue) = c'.map (fun c => c.2.byValue) →
        Configured res s (.start env c) → Configured res s' (.start env c') →
        ∃ launches, Launches (s.receive c) launches (startRunner res env (c.map Prod.fst) (s.receive c)) ∧
          Launches (s'.receive c') launches (startRunner res env (c'.map Prod.fst) (s'.receive c')) := by
  constructor
  · intro es
    have fresh : Recalls {} {} := rfl
    exact (calls_along res).throughout (fun s p call recalls _ => configured_iff_suits res recalls call) fresh es
  · intro env c c' s s' same configured configured'
    refine ⟨_, configured, ?_⟩
    have equal : intended res env (c.map Prod.snd) = intended res env (c'.map Prod.snd) := by
      refine intended_congr ?_
      rw [Option.map_map, Option.map_map]
      exact same
    rw [equal]
    exact configured'

/-- An unmarshalled "all" is not the object `Route.ALL`: `ss-local` gets an access list. -/
theorem unmarshalledAll_bypasses : ¬ ∀ (res : Resources) (es : List Call), (calls res).Throughout (Configured res) {} es := by
  intro all
  have configured := (all { privateRoute := [], chnRoute := [], reject := [], blackList := [] }
    [.start { isNumeric := fun _ => true, lookupA := fun _ => none, lookupAgain := fun _ => none, lookup := fun _ => none
              writable := fun _ => true, establish := .descriptor 40, sendfd := fun _ => true, close := true }
      (some (0, { host := some "1.2.3.4".toList, route := some { text := "all".toList, object := some 1 } }))]).1
  have fits : Fits _ _ _ _ := (configured_iff_suits _ (show Recalls {} {} from rfl) _).mp configured rfl
  exact absurd ((fits.route ⟨.inl rfl, rfl, nofun⟩).mpr rfl) (by decide)

end Shadowsocks.Vpn
