import EzEhci.Lib.Bits

/-!
# Operational registers

The registers of the controller that the driver reads and writes: USBCMD,
USBSTS, the port status and control registers PORTSC, and those written once
when the controller is started. Writing a `1` to a status bit of USBSTS clears
it (`UsbStsReg.writeClear`).
-/

namespace EzEhci

open Lib

structure UsbCmdReg where
  raw : BitVec 32
  deriving DecidableEq, Repr

namespace UsbCmdReg

def hcReset (r : UsbCmdReg) : Bool := bit 1 r.raw
def asyncAdvanceDoorbell (r : UsbCmdReg) : Bool := bit 6 r.raw
def withRs (r : UsbCmdReg) (b : Bool) : UsbCmdReg := ⟨setBit 0 b r.raw⟩
def withHcReset (r : UsbCmdReg) (b : Bool) : UsbCmdReg := ⟨setBit 1 b r.raw⟩
def withPeriodicScheduleEnable (r : UsbCmdReg) (b : Bool) : UsbCmdReg := ⟨setBit 4 b r.raw⟩
def withAsyncScheduleEnable (r : UsbCmdReg) (b : Bool) : UsbCmdReg := ⟨setBit 5 b r.raw⟩

/-- `with_interrupt_on_async_advance_doorbell`. -/
def withAsyncAdvanceDoorbell (r : UsbCmdReg) (b : Bool) : UsbCmdReg := ⟨setBit 6 b r.raw⟩

@[simp] theorem asyncAdvanceDoorbell_with (r : UsbCmdReg) (b : Bool) :
    (r.withAsyncAdvanceDoorbell b).asyncAdvanceDoorbell = b := by
  simp [asyncAdvanceDoorbell, withAsyncAdvanceDoorbell, bit_setBit]

theorem hcReset_withRs (r : UsbCmdReg) (b : Bool) : (r.withRs b).hcReset = r.hcReset := by
  simp [hcReset, withRs, bit_setBit]

end UsbCmdReg

structure UsbStsReg where
  raw : BitVec 32
  deriving DecidableEq, Repr

/-- The status bits of USBSTS that the interrupt handler looks at. -/
inductive StsBit where
  | usbInt
  | usbErrInt
  | portChangeDetect
  | frameListRollover
  | hostSystemError
  | asyncAdvance
  deriving DecidableEq, Repr

def StsBit.pos : StsBit → Nat
  | .usbInt => 0
  | .usbErrInt => 1
  | .portChangeDetect => 2
  | .frameListRollover => 3
  | .hostSystemError => 4
  | .asyncAdvance => 5

theorem StsBit.pos_inj {a b : StsBit} : a.pos = b.pos ↔ a = b := by
  cases a <;> cases b <;> simp [StsBit.pos]

theorem StsBit.pos_lt (b : StsBit) : b.pos < 32 := by cases b <;> decide

namespace UsbStsReg

def get (r : UsbStsReg) (b : StsBit) : Bool := bit b.pos r.raw

def set (r : UsbStsReg) (b : StsBit) : UsbStsReg := ⟨setBit b.pos true r.raw⟩

def zero : UsbStsReg := ⟨0⟩

def hcHalted (r : UsbStsReg) : Bool := bit 12 r.raw

/-- The register after a write of `v`: the status bits written as `1` are cleared. -/
def writeClear (r v : UsbStsReg) : UsbStsReg := ⟨r.raw &&& ~~~v.raw⟩

@[simp] theorem get_zero (b : StsBit) : zero.get b = false := by simp [get, zero]

theorem get_set (r : UsbStsReg) (b c : StsBit) : (r.set b).get c = (decide (c = b) || r.get c) := by
  simp only [get, set, bit_setBit _ _ _ _ b.pos_lt, StsBit.pos_inj]
  by_cases h : c = b <;> simp [h]

theorem get_writeClear (r v : UsbStsReg) (b : StsBit) :
    (r.writeClear v).get b = (r.get b && !v.get b) := by
  simp [get, writeClear, bit, b.pos_lt]

end UsbStsReg

structure UsbIntrReg where
  raw : BitVec 32
  deriving DecidableEq, Repr

/-- The interrupts the driver enables: all but the frame list rollover. -/
def UsbIntrReg.enabled : UsbIntrReg :=
  ⟨[StsBit.usbInt, .usbErrInt, .portChangeDetect, .hostSystemError, .asyncAdvance].foldl
    (fun raw b => setBit b.pos true raw) 0⟩

structure AsyncListAddrReg where
  raw : BitVec 32
  deriving DecidableEq, Repr

def AsyncListAddrReg.new (addrOffset : BitVec 32) : AsyncListAddrReg :=
  ⟨setField 5 ((addrOffset >>> 5).setWidth 27) 0⟩

structure ConfigFlagReg where
  raw : BitVec 32
  deriving DecidableEq, Repr

def ConfigFlagReg.configured : ConfigFlagReg := ⟨setBit 0 true 0⟩

structure PortScReg where
  raw : BitVec 32
  deriving DecidableEq, Repr

namespace PortScReg

def currentConnectStatus (r : PortScReg) : Bool := bit 0 r.raw
def portEnabled (r : PortScReg) : Bool := bit 2 r.raw
def portReset (r : PortScReg) : Bool := bit 8 r.raw
def withConnectStatusChange (r : PortScReg) (b : Bool) : PortScReg := ⟨setBit 1 b r.raw⟩
def withPortEnableChange (r : PortScReg) (b : Bool) : PortScReg := ⟨setBit 3 b r.raw⟩
def withOverCurrentChange (r : PortScReg) (b : Bool) : PortScReg := ⟨setBit 5 b r.raw⟩
def withPortReset (r : PortScReg) (b : Bool) : PortScReg := ⟨setBit 8 b r.raw⟩

def withoutWriteToClearBits (r : PortScReg) : PortScReg :=
  ((r.withConnectStatusChange false).withPortEnableChange false).withOverCurrentChange false

end PortScReg

end EzEhci
