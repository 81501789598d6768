import Mathlib.Data.List.Basic
import Mathlib.Logic.Function.Basic
import Shadowsocks.Vpn.ConfigUtils

/-!
# The VPN service

`ShadowsocksVpnService` with the process wrappers it starts. A method is a program that
changes the service and may throw; what it has changed by then stays. Everything outside
the service answers from an `Env`.

Java's objects are references here: a `SsConfig` is changed in place, and the wrappers of the
processes keep the reference that they were made with.
-/

namespace Shadowsocks.Vpn
set_option autoImplicit false

/-- `Constants.State`. -/
inductive Status where
  | init | connecting | connected | stopping | stopped
  deriving DecidableEq, Repr

/-- How a method may end other than by returning. -/
inductive Throwable where
  | nullPointer
  /-- An exception of `Builder.establish` that nothing catches. -/
  | uncaught
  /-- A thread of a process wrapper threw, which ends the whole application. -/
  | killed
  deriving DecidableEq, Repr

/-- The files the service writes. -/
inductive File where
  | acl | ssLocal | ssTunnel | pdnsd
  deriving DecidableEq, Repr

def File.path : File → Text
  | .acl => base ++ "/acl.list".toList
  | .ssLocal => base ++ "/ss-local-vpn.conf".toList
  | .ssTunnel => base ++ "/ss-tunnel-vpn.conf".toList
  | .pdnsd => base ++ "/pdnsd-vpn.conf".toList

inductive Program where
  | ssLocal | ssTunnel | pdnsd | tun2socks
  deriving DecidableEq, Repr

/-- A process as it was started: its arguments and the files these name. -/
structure Launch where
  program : Program
  cmd : List Text
  files : List (Option Text)
  deriving DecidableEq

/-- The string arrays and strings of the application. -/
structure Resources where
  privateRoute : List Text
  chnRoute : List Text
  reject : Text
  blackList : Text

inductive Established where
  | descriptor (fd : Nat) | null | illegalState | fails
  deriving DecidableEq

/-- What the calls out of the service return. -/
structure Env where
  isNumeric : Text → Bool
  /-- `resolve(host, Type.A)`, the first and the second time. -/
  lookupA : Text → Option Text
  lookupAgain : Text → Option Text
  /-- `resolve(host)`. -/
  lookup : Text → Option Text
  /-- The files that can be opened for writing. -/
  writable : File → Bool
  establish : Established
  /-- Whether the given attempt of `System.sendfd` succeeds. -/
  sendfd : Nat → Bool
  close : Bool

/-- The service. A config is an object; a process handle is null or the one object its
class has. -/
structure Service where
  config : Option Nat := none
  objects : Nat → SsConfig := fun _ => {}
  conn : Option Nat := none
  vpnThread : Bool := false
  sslocalProcess : Bool := false
  sstunnelProcess : Bool := false
  tun2socksProcess : Bool := false
  pdnsdProcess : Bool := false
  kcptunProcess : Bool := false
  /-- The `mConfig` of the one `SsLocalProcess`, if there is one. -/
  ssLocal : Option Nat := none
  /-- The `mConfig` of the one `PdnsdProcess`. -/
  pdnsd : Option Nat := none
  files : File → Option Text := fun _ => none
  /-- What `changeState` has been called with. -/
  posted : List Status := []
  launched : List Launch := []

abbrev Java := EStateM Throwable Service

def Service.post (s : Service) (status : Status) : Service := { s with posted := s.posted ++ [status] }

/-- `changeState`. -/
def changeState (status : Status) : Java Unit := modify fun s => s.post status

/-- Unboxing, or a method called on a reference. -/
def deref {α : Type} : Option α → Java α
  | some a => pure a
  | none => throw .nullPointer

/-- The object that the field `config` refers to. -/
def currentConfig : Java SsConfig := do
  let s ← get
  let ref ← deref s.config
  pure (s.objects ref)

/-- `printToFile`, which gives null where the file cannot be opened, and what is printed. -/
def printTo (env : Env) (file : File) (content : Text) : Java Unit :=
  if env.writable file then
    modify fun s => { s with files := Function.update s.files file (some content) }
  else throw .nullPointer

/-- The thread of a process wrapper starts the process. -/
def startProcess (program : Program) (cmd : List Text) (reads : List File) : Java Unit :=
  modify fun s => { s with launched := s.launched ++ [{ program, cmd, files := reads.map s.files }] }

/-! ## `SsLocalProcess` and `PdnsdProcess` -/

/-- `createSsLocal`: the config of the first call is kept. -/
def createSsLocal : Java Unit :=
  modify fun s => { s with ssLocal := s.ssLocal <|> s.config, sslocalProcess := true }

/-- The `cmd` of `SsLocalProcess.start`, and the files it names. -/
def ssLocalCmd (auth : Bool) (route : Option Str) : List Text × List File :=
  let cmd := [base ++ "/ss-local".toList, "-V".toList, "-u".toList, "-b".toList, "127.0.0.1".toList, "-t".toList,
    "600".toList, "-c".toList, File.ssLocal.path, "-P".toList, base]
  let cmd := if auth then cmd ++ ["-A".toList] else cmd
  if route ≠ some Route.all then (cmd ++ ["--acl".toList, File.acl.path], [.ssLocal, .acl]) else (cmd, [.ssLocal])

/-- `SsLocalProcess.start`. -/
def startSsLocal : Java Unit := do
  let s ← get
  let mConfig := s.objects (← deref s.ssLocal)
  match mConfig.auth with
  | none => throw .killed
  | some auth =>
    let (cmd, reads) := ssLocalCmd auth mConfig.route
    startProcess .ssLocal cmd reads

/-- `createPdnsd`. -/
def createPdnsd : Java Unit :=
  modify fun s => { s with pdnsd := s.pdnsd <|> s.config, pdnsdProcess := true }

/-- The `conf` of `PdnsdProcess.start`. -/
def pdnsdConf (res : Resources) (ipv6 : Bool) (route : Option Str) : Text :=
  let ipv6 := if ipv6 then [] else "reject = ::/0;".toList
  if route = some Route.bypassChn ∨ route = some Route.bypassLanChn then
    format pdnsdDirect ["0.0.0.0".toList, decimal 8153, res.reject, res.blackList, decimal 8163, ipv6]
  else format pdnsdLocal ["0.0.0.0".toList, decimal 8153, decimal 8163, ipv6]

def pdnsdCmd : Text := base ++ "/pdnsd -c ".toList ++ File.pdnsd.path

/-- `PdnsdProcess.start`. -/
def startPdnsd (res : Resources) (env : Env) : Java Unit := do
  let s ← get
  let mConfig := s.objects (← deref s.pdnsd)
  match mConfig.ipv6 with
  | none => throw .killed
  | some ipv6 =>
    if env.writable .pdnsd then
      printTo env .pdnsd (println (pdnsdConf res ipv6 mConfig.route))
      startProcess .pdnsd (pdnsdCmd.splitOn ' ') [.pdnsd]
    else throw .killed

/-! ## `ShadowsocksVpnService` -/

/-- The lines of `acl.list`. -/
def aclLines (res : Resources) (route : Option Str) : List Text :=
  if route = some Route.bypassLan then res.privateRoute
  else if route = some Route.bypassChn then res.chnRoute
  else if route = some Route.bypassLanChn then res.chnRoute
  else []

/-- `SHADOWSOCKS` filled in. -/
def shadowsocksConf (config : SsConfig) (localPort : Int) : Text :=
  format shadowsocks [shown config.host, decimal config.remotePort, decimal localPort, shown config.password,
    shown config.method, decimal 10]

/-- `startShadowsocksDaemon`. -/
def startShadowsocksDaemon (res : Resources) (env : Env) : Java Unit := do
  let config ← currentConfig
  if config.route ≠ some Route.all then
    printTo env .acl ((aclLines res config.route).flatMap println)
  printTo env .ssLocal (println (shadowsocksConf config config.localPort))
  createSsLocal
  startSsLocal

/-- The `cmd` of `SsTunnelProcess.start`. -/
def ssTunnelCmd : List Text :=
  [base ++ "/ss-tunnel".toList, "-V".toList, "-u".toList, "-t".toList, "10".toList, "-b".toList, "127.0.0.1".toList,
    "-l".toList, "8163".toList, "-L".toList, "8.8.8.8:53".toList, "-P".toList, base, "-c".toList, File.ssTunnel.path]

/-- `startDnsTunnel`. -/
def startDnsTunnel (env : Env) : Java Unit := do
  let config ← currentConfig
  printTo env .ssTunnel (println (shadowsocksConf config 8163))
  modify fun s => { s with sstunnelProcess := true }
  startProcess .ssTunnel ssTunnelCmd [.ssTunnel]

/-- `startDnsDaemon`. -/
def startDnsDaemon (res : Resources) (env : Env) : Java Unit := do
  createPdnsd
  startPdnsd res env

/-- `killProcesses`. -/
def killProcesses : Java Unit :=
  modify fun s => { s with
    sslocalProcess := false, sstunnelProcess := false, tun2socksProcess := false, pdnsdProcess := false
    kcptunProcess := false }

/-- `stopRunner`. The callback count is never 0 and no receiver is ever registered. -/
def stopRunner (env : Env) : Java Unit := do
  modify fun s => { s with vpnThread := false }
  changeState .stopping
  killProcesses
  modify fun s => { s with conn := if env.close then none else s.conn }
  changeState .stopped

/-- The `cmd` of `startVpn`. -/
def tun2socksCmd (localPort : Int) (fd : Nat) (ipv6 udpdns : Bool) : Text :=
  format (base ++ ("/tun2socks --netif-ipaddr %s " ++ "--netif-netmask 255.255.255.0 " ++
      "--socks-server-addr 127.0.0.1:%d " ++ "--tunfd %d " ++ "--tunmtu %d " ++ "--loglevel 5 " ++ "--sock-path %s " ++
      "--logger stdout").toList)
    ["26.26.26.2".toList, decimal localPort, decimal fd, decimal 1500, base ++ "/sock_path".toList]
  ++ (if ipv6 then " --netif-ip6addr fdfe:dcba:9876::2".toList else [])
  ++ (if udpdns then " --enable-udprelay".toList else " --dnsgw 26.26.26.1:8153".toList)

/-- `startVpn`. -/
def startVpn (env : Env) : Java Int := do
  changeState .connecting
  let config ← currentConfig
  let ipv6 ← deref config.ipv6
  match env.establish with
  | .descriptor fd => modify fun s => { s with conn := some fd }
  | .null => modify fun s => { s with conn := none }
  | .illegalState => do
    changeState .stopped
    modify fun s => { s with conn := none }
  | .fails => throw .uncaught
  match (← get).conn with
  | none => do
    stopRunner env
    pure (-1)
  | some fd => do
    let udpdns ← deref config.udpdns
    modify fun s => { s with tun2socksProcess := true }
    startProcess .tun2socks ((tun2socksCmd config.localPort fd ipv6 udpdns).splitOn ' ') []
    pure fd

/-- `sendFd`: four tries. -/
def sendFd (env : Env) (fd : Int) : Bool := fd ≠ -1 && [1, 2, 3, 4].any env.sendfd

/-- `handleConnection`. -/
def handleConnection (res : Resources) (env : Env) : Java Bool := do
  startShadowsocksDaemon res env
  startDnsDaemon res env
  startDnsTunnel env
  let fd ← startVpn env
  pure (sendFd env fd)

/-- `isLiteralIpAddress`: any exception counts as no. -/
def isLiteralIpAddress (env : Env) (address : Option Text) : Bool := address.any env.isNumeric

/-- The value of `resolved` in `startRunner`, and what becomes of `config.host`. -/
def resolveServer (env : Env) : Java Bool := do
  let config ← currentConfig
  if isLiteralIpAddress env config.host then pure true
  else do
    let host ← deref config.host
    let address ← deref (env.lookupA host)
    if address.isEmpty then do
      let address ← deref (env.lookup host)
      pure (!address.isEmpty)
    else do
      modify fun s => { s with
        objects := match s.config with
          | some ref => Function.update s.objects ref { config with host := env.lookupAgain host }
          | none => s.objects }
      pure true

/-- `startRunner`. -/
def startRunner (res : Resources) (env : Env) (c : Option Nat) : Java Unit := do
  modify fun s => { s with config := c, vpnThread := true }
  changeState .connecting
  if c.isSome then do
    killProcesses
    let resolved ← resolveServer env
    let handled ← if resolved then handleConnection res env else pure false
    if handled then changeState .connected
    else do
      changeState .stopped
      stopRunner env

end Shadowsocks.Vpn
