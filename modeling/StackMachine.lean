import StackMachine.Main
import StackMachine.Proofs.Budget
import StackMachine.Proofs.Closed
import StackMachine.Proofs.Contract
import StackMachine.Proofs.Counter
import StackMachine.Proofs.Directory
import StackMachine.Proofs.Growth
import StackMachine.Proofs.History
import StackMachine.Proofs.Locality
import StackMachine.Proofs.Loop
import StackMachine.Proofs.Reset
import StackMachine.Proofs.Source
import StackMachine.Proofs.Transparency
import StackMachine.Session
import StackMachine.Proofs.Standard
import StackMachine.Proofs.Diagnosis
import StackMachine.Proofs.Concatenation
import StackMachine.Proofs.Forward
import StackMachine.Proofs.Digitwise
import StackMachine.Proofs.Layout
import StackMachine.Proofs.Postfix
import StackMachine.Proofs.Recovery
import StackMachine.Proofs.Dump
import StackMachine.Proofs.Stream
import StackMachine.Proofs.Disassembly
import StackMachine.Proofs.Countdown
import StackMachine.Proofs.Atomic
import StackMachine.Proofs.Joining
import StackMachine.Proofs.Typewriter
import StackMachine.Proofs.Tables
