import Gokvm.Gateway.GrantSafety
import Gokvm.Gateway.Filtering
import Gokvm.Virtio.Input
import Gokvm.Virtio.BlkDurability
import Gokvm.Virtio.Damage
import Gokvm.Gateway.AdmissionCounts
import Gokvm.Gateway.Lifecycle
import Gokvm.Gateway.MemorySafety
import Gokvm.Gateway.Quota
import Gokvm.Gateway.CrashSafety
import Gokvm.Rdp.BitmapHistory
import Gokvm.Rdp.AvcHistory
import Gokvm.Rdp.GraphicsWindow
import Gokvm.Virtio.Features
import Gokvm.Machine.SharedIrqLevel
import Gokvm.Rdp.ChannelRoundTrip
import Gokvm.Rdp.ActivationOrder
import Gokvm.Gateway.Authorization
import Gokvm.Gateway.Extensions
import Gokvm.Virtio.BlkImage
import Gokvm.Virtio.Vnc
import Gokvm.Iodev.AtapiProtocol
import Gokvm.Virtio.GpuTransfer
import Gokvm.Machine.Serial
import Gokvm.Rdp.InputPaths
import Gokvm.Machine.Boot
import Gokvm.Iodev.Ps2Mouse
