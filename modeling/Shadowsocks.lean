import Shadowsocks.Lib.Bytes
import Shadowsocks.Lib.OnesComplement
import Shadowsocks.Lib.Transducer
import Shadowsocks.Lib.Memory
import Shadowsocks.Lib.Machine
import Shadowsocks.Lib.Framing
import Shadowsocks.Lib.Recent
import Shadowsocks.Lib.Heap
import Shadowsocks.Lib.Pool
import Shadowsocks.Lib.Program
import Shadowsocks.Cache
import Shadowsocks.Lru
import Shadowsocks.Resolv
import Shadowsocks.AclFile
import Shadowsocks.Encrypt.Buffer
import Shadowsocks.Encrypt.Cipher
import Shadowsocks.Encrypt.Openssl
import Shadowsocks.Encrypt.BytesToKey
import Shadowsocks.Encrypt.Stream
import Shadowsocks.Encrypt.Replay
import Shadowsocks.Encrypt.Ota
import Shadowsocks.Encrypt.Table
import Shadowsocks.Encrypt.MergeSort
import Shadowsocks.Encrypt.Packet
import Shadowsocks.Encrypt.Sealing
import Shadowsocks.Encrypt.CheckHash
import Shadowsocks.Encrypt.Faults
import Shadowsocks.Encrypt.Rechunk
import Shadowsocks.Encrypt.TableInit
import Shadowsocks.Encrypt.Pipeline
import Shadowsocks.Relay.Pipe
import Shadowsocks.Relay.Crypt
import Shadowsocks.Relay.Faults
import Shadowsocks.Relay.Header
import Shadowsocks.Relay.Session
import Shadowsocks.Relay.Plain
import Shadowsocks.Relay.Reception
import Shadowsocks.Acl
import Shadowsocks.Local.Conn
import Shadowsocks.Local.Relay
import Shadowsocks.Local.Request
import Shadowsocks.Local.Talk
import Shadowsocks.Local.Entry
import Shadowsocks.Local.Handshake
import Shadowsocks.Local.Reception
import Shadowsocks.Tunnel.Conn
import Shadowsocks.Tunnel.Upstream
import Shadowsocks.Redir.Conn
import Shadowsocks.Redir.Upstream
import Shadowsocks.Server.Conn
import Shadowsocks.Server.Header
import Shadowsocks.Server.Serve
import Shadowsocks.Server.Relay
import Shadowsocks.Server.Upstream
import Shadowsocks.Server.Stage
import Shadowsocks.Server.Process
import Shadowsocks.Server.Ownership
import Shadowsocks.Server.Callbacks
import Shadowsocks.Server.Owner
import Shadowsocks.Server.Waiting
import Shadowsocks.Relay.Downstream
import Shadowsocks.Relay.Clients
import Shadowsocks.Agreement
import Shadowsocks.Udp.Header
import Shadowsocks.Udp.Grammar
import Shadowsocks.Udp.Datagram
import Shadowsocks.Udp.Session
import Shadowsocks.Udp.Remote
import Shadowsocks.Udp.Local
import Shadowsocks.Udp.Plain
import Shadowsocks.Udp.Pending
import Shadowsocks.Udp.Live
import Shadowsocks.Udp.Destination
import Shadowsocks.Udp.Reply
import Shadowsocks.Udp.Auth
import Shadowsocks.Udp.Entry
import Shadowsocks.HeaderAgreement
import Shadowsocks.Server.Entry
import Shadowsocks.Tun2socks.Ipv4
import Shadowsocks.Tun2socks.Dns
import Shadowsocks.Tun2socks.Addr
import Shadowsocks.Tun2socks.UdpGwClient
import Shadowsocks.Tun2socks.Table
import Shadowsocks.Tun2socks.Delivery
import Shadowsocks.Tun2socks.Mtu
import Shadowsocks.Tun2socks.Rewrite
import Shadowsocks.Tun2socks.EndToEnd
import Shadowsocks.Manager.Ping
import Shadowsocks.Manager.Commands
import Shadowsocks.Manager.PortTable
import Shadowsocks.Vpn.Service
import Shadowsocks.Vpn.Binder
import Shadowsocks.Vpn.History
import Shadowsocks.Vpn.ConfText
import Shadowsocks.Tun2socks.TcpRelay
import Shadowsocks.Tun2socks.SocksDialogue
import Shadowsocks.Local.Stream
import Shadowsocks.Tun2socks.Handshake
import Shadowsocks.Tun2socks.Device
import Shadowsocks.Tun2socks.PacketBuffer
import Shadowsocks.Tun2socks.UdpSend
