import EasyStressTest.Loop
import EasyStressTest.Lifecycle
import EasyStressTest.Simulation
import EasyStressTest.Population
import EasyStressTest.Posting
import EasyStressTest.Reachability
import EasyStressTest.TaskStore
import EasyStressTest.Pursuit
import EasyStressTest.SingleClose
import EasyStressTest.SafeRelease
import EasyStressTest.Protocol
import EasyStressTest.LoadControl
import EasyStressTest.Progress
import EasyStressTest.Budget
import EasyStressTest.CloseLoop
import EasyStressTest.Chunking
import EasyStressTest.EndDetector
import EasyStressTest.Drain
import EasyStressTest.Wakeup
import EasyStressTest.EarlyExit
import EasyStressTest.EndWindow
import EasyStressTest.Arguments
import EasyStressTest.Normalisation
import EasyStressTest.Routing
import EasyStressTest.Assertions
import EasyStressTest.LockDiscipline
import EasyStressTest.DelThread
import EasyStressTest.JenkinsBalance
import EasyStressTest.MurmurBalance
import EasyStressTest.HashInit
import EasyStressTest.SweepDelay
import EasyStressTest.Teardown
import EasyStressTest.Exclusion
import EasyStressTest.Conservation
import EasyStressTest.Received
import EasyStressTest.Isolation
import EasyStressTest.Scripted
import EasyStressTest.Configuration
import EasyStressTest.Commutation
