import Fiber.Kernel.Channel.AllOrNothing
import Fiber.Kernel.Channel.Commutation
import Fiber.Kernel.Channel.Draining
import Fiber.Kernel.Channel.Mailboxes
import Fiber.Kernel.Channel.Ownership
import Fiber.Kernel.Channel.PeerClosure
import Fiber.Kernel.Channel.Readability
import Fiber.Kernel.Job.Admission
import Fiber.Kernel.Process.Lookup
import Fiber.Kernel.Process.ScopeExit
import Fiber.Kernel.Syscall.ArgumentTransfer
import Fiber.Kernel.Syscall.Atomicity
import Fiber.Kernel.Syscall.Naming
import Fiber.Kernel.System.Attribution
import Fiber.Kernel.System.Confinement
import Fiber.Kernel.System.Membership
import Fiber.Kernel.System.Refusal
import Fiber.Kernel.System.Takeover
import Fiber.KernelOld.Draws
import Fiber.KernelOld.Failure
import Fiber.KernelOld.Starting
import Fiber.Sdk.Reporting
import Fiber.SdkOld.Guards
import Fiber.SdkOld.OverKernel
import Fiber.SdkOld.Validity
import Fiber.Sys.Reception
import Fiber.Webview.Delivery
