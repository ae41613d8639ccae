import Ratputer.Theorems.MainLoop
import Ratputer.Theorems.UsbScreen
import Ratputer.Theorems.ConfigRewrite
import Ratputer.Theorems.Unreadable
import Ratputer.Theorems.SftpSchedule
import Ratputer.Theorems.SftpBuffers
import Ratputer.Theorems.SftpTokens
import Ratputer.Theorems.SftpChannel
import Ratputer.Lib.Mealy
import Ratputer.Lib.Octets
import Ratputer.Theorems.SdBlock
import Ratputer.Theorems.MscCache
import Ratputer.Theorems.MscPhases
import Ratputer.Theorems.UsbDisk
import Ratputer.Theorems.MscSense
import Ratputer.Theorems.MscFaults
import Ratputer.Theorems.MscStale
import Ratputer.Theorems.Sntp
import Ratputer.Theorems.SftpTimes
import Ratputer.Theorems.SftpBudget
import Ratputer.Theorems.SftpReaddir
import Ratputer.Ssh
import Ratputer.Theorems.SshChannels
import Ratputer.Theorems.Clock
import Ratputer.Theorems.FsPath
import Ratputer.Theorems.Mbr
import Ratputer.Theorems.FileManager
import Ratputer.Theorems.WifiScan
import Ratputer.Theorems.Debug
import Ratputer.Theorems.SshExec
import Ratputer.Theorems.SshReply
import Ratputer.Theorems.SftpUpload
import Ratputer.Theorems.SftpRefusals
import Ratputer.Theorems.SftpCursors
import Ratputer.Theorems.CopyJob
import Ratputer.Theorems.CopyTree
import Ratputer.Theorems.Fat32
