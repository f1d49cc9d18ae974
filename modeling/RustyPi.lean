import RustyPi.Kernel.FpSwitching
import RustyPi.Kernel.Kill
import RustyPi.Fat.StoredNames
import RustyPi.Process.PipeWaits
import RustyPi.Process.Starting
import RustyPi.Link.Requests
import RustyPi.Link.Restarts
import RustyPi.Update.Deploying
import RustyPi.Usb.PacketSizes
import RustyPi.Usb.DefaultAddress
import RustyPi.Usb.Serving
import RustyPi.Link.RxQueue
import RustyPi.Link.Replies
import RustyPi.Process.FileBuffers
import RustyPi.Net.Leases
import RustyPi.Net.Lookups
import RustyPi.Net.CheckedInterface
import RustyPi.Memory.HeapFits
import RustyPi.Fat.Removal
import RustyPi.Fat.Caching
import RustyPi.Fat.Undercount
import RustyPi.Sched.RoundRobin
import RustyPi.Memory.ManySpaces
import RustyPi.Elf.CheckedParsing
import RustyPi.Usb.Keyboard
import RustyPi.Core.Path
import RustyPi.Fat.CheckedAllocation
import RustyPi.Process.Inputs
import RustyPi.Sched.Mutexes
