import Bhaskix.Syscall.Gift
import Bhaskix.Syscall.Quota
import Bhaskix.Syscall.Authority
import Bhaskix.Fs.Lending
import Bhaskix.Mm.Allocator
import Bhaskix.Vm.Revocation
import Bhaskix.Vm.Copy
import Bhaskix.Ipc.Notify
import Bhaskix.Ipc.Answers
import Bhaskix.Abi.Channel
import Bhaskix.Net.TcpAck
import Bhaskix.Net.TcpStream
import Bhaskix.Net.TcpTally
import Bhaskix.Net.TcpBounds
import Bhaskix.Net.Reassembly
import Bhaskix.Net.Cookie
import Bhaskix.Loader.Rollback
import Bhaskix.Hosted.Stream
import Bhaskix.Hosted.Serving
import Bhaskix.Hosted.Signals
import Bhaskix.Hosted.Image
import Bhaskix.Audit.Log
import Bhaskix.Sig.Sha256
import Bhaskix.Sched.Share
import Bhaskix.Sched.Ending
