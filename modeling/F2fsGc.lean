import F2fsGc.Basic
import F2fsGc.Model.Sit
import F2fsGc.Model.Cost
import F2fsGc.Model.Policy
import F2fsGc.Model.Scan
import F2fsGc.Model.NodeIndex
import F2fsGc.Model.Run
import F2fsGc.Model.Migrate
import F2fsGc.Model.Gc
import F2fsGc.Model.Thread
import F2fsGc.Proof.CbCost
import F2fsGc.Proof.ScanInv
import F2fsGc.Proof.Victim
import F2fsGc.Proof.ScanRun
import F2fsGc.Proof.NodeIndex
import F2fsGc.Proof.Frame
import F2fsGc.Proof.Round
import F2fsGc.Proof.Thread
import F2fsGc.Proof.Dispatch
import F2fsGc.Proof.Ledger
import F2fsGc.Proof.Termination
import F2fsGc.Proof.Retval
import F2fsGc.Proof.Collections
import F2fsGc.Proof.Reserve
import F2fsGc.Proof.Reclaim
import F2fsGc.Proof.Faults
import F2fsGc.Proof.Handover
import F2fsGc.Proof.Fairness
import F2fsGc.Proof.Custody
