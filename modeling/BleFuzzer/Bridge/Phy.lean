import BleFuzzer.Bridge.Fifo

/-!
# The globals of the bridge driver

The file-scope variables of `ble_phy.c` and the setters through which the controller changes them.
The static locals of `ble_phy_uart_rx_char` and `recv_packet` are fields as well, and so is the
membership of `ev_recv_packet` in the task's event queue.
-/

namespace BleFuzzer.Bridge

/-- The failed assertions and buffer overruns a driver call can end in. -/
inductive Fault
  /-- `assert(byte == 0xCC)` of `ble_phy_uart_rx_char`. -/
  | notLogTx
  /-- `assert(!fifo_is_full(&serial_rx_buf))` of `ble_phy_uart_rx_char`. -/
  | rxFifoFull
  /-- `assert(fifo_peek(f, 0) == 0xA7)` of `fifo_get_pkt_len`. -/
  | notDataCmd
  /-- `assert(fifo_has_space(&serial_tx_buf, ...))` of `ble_phy_tx`. -/
  | txFifoFull
  /-- A write past the end of `rx_buf` in `recv_packet`. -/
  | rxBufOverrun
  /-- A write past the end of `tx_buf` in `ble_phy_tx`. -/
  | txBufOverrun
deriving Repr, DecidableEq

/-- The link-layer state reported with a received packet. -/
inductive LlState
  | standby
  | adv
  | connection
deriving Repr, DecidableEq

/-- The driver's globals. -/
structure Phy where
  phyChan : UInt8
  phyAccessAddress : UInt32
  rxSn : UInt8
  rxNesn : UInt8
  llState : LlState
  sentNonEmptyPkt : Bool
  encEnabled : Bool
  encKey : Bytes
  encIv : Bytes
  encCounter : UInt64
  serialTxBuf : Fifo
  serialRxBuf : Fifo
  uartIsConnected : Bool
  /-- `static uint32_t pkt_count` of `ble_phy_uart_rx_char`. -/
  pktCount : UInt32
  /-- `static bool last_msg_was_conn` of `recv_packet`. -/
  lastMsgWasConn : Bool
  /-- Whether `ev_recv_packet` is queued on `phy_task_recv_evq`. -/
  recvPacketQueued : Bool
deriving Repr, DecidableEq

/-- `BLE_PHY_NUM_CHANS`. -/
def blePhyNumChans : UInt8 := 40

/-- The globals at start-up, after `ble_phy_init`. -/
def blePhyInit : Phy where
  phyChan := blePhyNumChans
  phyAccessAddress := 0
  rxSn := 0
  rxNesn := 0
  llState := .standby
  sentNonEmptyPkt := false
  encEnabled := false
  encKey := List.replicate 16 0
  encIv := List.replicate 8 0
  encCounter := 0
  serialTxBuf := fifoCreate 1024
  serialRxBuf := fifoCreate 1024
  uartIsConnected := false
  pktCount := 0
  lastMsgWasConn := false
  recvPacketQueued := false

def blePhySetchan (phy : Phy) (chan : UInt8) (accessAddr : UInt32) : Phy :=
  { phy with
    phyAccessAddress := accessAddr
    phyChan := chan
    llState := if chan = 37 ∨ chan = 38 ∨ chan = 39 then .adv else .connection }

def blePhyEncryptEnable (phy : Phy) (key : Bytes) : Phy :=
  { phy with encKey := key.take 16, encEnabled := true }

def blePhyEncryptIvSet (phy : Phy) (iv : Bytes) : Phy := { phy with encIv := iv.take 8 }

def blePhyEncryptCounterSet (phy : Phy) (counter : UInt64) : Phy := { phy with encCounter := counter }

def blePhyEncryptDisable (phy : Phy) : Phy := { phy with encEnabled := false }

end BleFuzzer.Bridge
