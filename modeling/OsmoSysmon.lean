import OsmoSysmon.OpenVpn.Reads
import OsmoSysmon.OpenVpn.Fields
import OsmoSysmon.ShellOutput
import OsmoSysmon.TreeCalls
import OsmoSysmon.SimpleCtrl.BufferRoom
import OsmoSysmon.SimpleCtrl.Session
import OsmoSysmon.SimpleCtrl.Segmentation
import OsmoSysmon.SimpleCtrl.Ownership
import OsmoSysmon.SimpleCtrl.Guarded
import OsmoSysmon.SimpleCtrl.Wire
import OsmoSysmon.Ctrl.Linked
import OsmoSysmon.Ctrl.Answers
import OsmoSysmon.Cycle.Display
import OsmoSysmon.Cycle.Netdev
import OsmoSysmon.Netlink.Filed
import OsmoSysmon.Ping.Poll
import OsmoSysmon.OpenVpn.Mailbox
import OsmoSysmon.Registries.Maps
import OsmoSysmon.Config.RoundTrip
import OsmoSysmon.Daemon.Start
import OsmoSysmon.SimpleCtrl.Console
import OsmoSysmon.OpenVpn.Fleet
import OsmoSysmon.OpenVpn.History
import OsmoSysmon.Daemon.Complete
import OsmoSysmon.Registries.Memory
import OsmoSysmon.SimpleCtrl.Remote
import OsmoSysmon.FileRead
import OsmoSysmon.SysinfoTexts
import OsmoSysmon.Netlink.Attributes
import OsmoSysmon.Daemon.Observer
