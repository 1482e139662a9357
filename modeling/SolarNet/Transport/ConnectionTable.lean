import Mathlib
import SolarNet.Lib.Run
import SolarNet.Lib.Text
import SolarNet.Net.EventLoopThreadPool
import SolarNet.Transport.InetAddress

/-!
# The connection table of `TcpServer`

`NewConnection` and `RemoveConnectionInLoop` of
`solar_net/net/transport/tcp_server.cpp`, as far as they name connections and keep
`m_connections`.  Both run on the main loop.  The table is keyed by the name

  `<server name>-<peer address>#<number>@main` or `@worker`

where the number comes from a 32-bit counter that wraps.  The server name is chosen by
the user and may contain any of the separators, but neither the number nor the last
part contains the separator in front of it.  So the number can be read off the name,
and the names are different as long as the numbers are.
-/

namespace SolarNet

open Lib

/-- What a `TcpConnection` is made from. -/
structure ServerConnection where
  name : String
  ioLoop : Option LoopId
  sockfd : Int
  localAddr : InetAddress
  peerAddr : InetAddress
  deriving DecidableEq

/-- The part of a `TcpServer` that has to do with its table.  A loop of `none` is the
main loop.  `accepted`, `removed` and `closedFds` are the history: the connections that
were made, those that were taken away, and the sockets closed after a failed
`getsockname`. -/
structure ConnectionTable where
  serverName : String
  threadPool : Option EventLoopThreadPool
  nextConnId : Int32
  connections : String → Option ServerConnection
  accepted : List ServerConnection
  removed : List ServerConnection
  closedFds : List Int

namespace ConnectionTable

/-- A server that has accepted nothing. -/
def new (serverName : String) (threadPool : Option EventLoopThreadPool) : ConnectionTable where
  serverName := serverName
  threadPool := threadPool
  nextConnId := 1
  connections := fun _ => none
  accepted := []
  removed := []
  closedFds := []

/-- The loop for a new connection. -/
def chooseLoop (s : ConnectionTable) : ConnectionTable × Option LoopId :=
  match s.threadPool with
  | none => (s, none)
  | some pool => ({ s with threadPool := some pool.getNextLoop.1 }, pool.getNextLoop.2)

/-- The last part of a name. -/
def loopName (ioLoop : Option LoopId) : String := if ioLoop = none then "main" else "worker"

/-- `conn_name`. -/
def connName (ntop : InetNtop) (serverName : String) (peerAddr : InetAddress) (connId : Int32)
    (ioLoop : Option LoopId) : String :=
  (if serverName.isEmpty then "conn" else serverName) ++ "-" ++ peerAddr.toIpPort ntop ++ "#" ++
    toString connId.toInt ++ "@" ++ loopName ioLoop

/-- `NewConnection`.  `getsockname` gives the bytes of the local address and their
length, or fails. -/
def newConnection (ntop : InetNtop) (s : ConnectionTable) (sockfd : Int) (peerAddr : InetAddress)
    (getsockname : Option ((Nat → Byte) × Nat)) : ConnectionTable :=
  let (s, ioLoop) := s.chooseLoop
  match getsockname with
  | none => { s with closedFds := s.closedFds ++ [sockfd] }
  | some (bytes, len) =>
      let conn : ServerConnection :=
        { name := connName ntop s.serverName peerAddr s.nextConnId ioLoop
          ioLoop := ioLoop
          sockfd := sockfd
          localAddr := InetAddress.ofSockaddr (some bytes) len
          peerAddr := peerAddr }
      { s with
        nextConnId := s.nextConnId + 1
        connections := Function.update s.connections conn.name (some conn)
        accepted := s.accepted ++ [conn] }

/-- `RemoveConnectionInLoop`: erase by name. -/
def removeConnectionInLoop (s : ConnectionTable) (conn : ServerConnection) : ConnectionTable :=
  { s with
    connections := Function.update s.connections conn.name none
    removed := s.removed ++ [conn] }

end ConnectionTable

/-- What the main loop does with the table. -/
inductive TableLabel where
  | newConnection (sockfd : Int) (peerAddr : InetAddress)
      (getsockname : Option ((Nat → Byte) × Nat))
  | removeConnectionInLoop (conn : ServerConnection)
  /-- `StartInLoop` and `StopThreadPoolInLoop` replace the pool. -/
  | setThreadPool (threadPool : Option EventLoopThreadPool)

namespace ConnectionTable

/-- A connection is removed at most once, and only one that was made. -/
def step (ntop : InetNtop) (s : ConnectionTable) : TableLabel → Option ConnectionTable
  | .newConnection sockfd peerAddr getsockname =>
      some (s.newConnection ntop sockfd peerAddr getsockname)
  | .removeConnectionInLoop conn =>
      if conn ∈ s.accepted ∧ conn ∉ s.removed then some (s.removeConnectionInLoop conn) else none
  | .setThreadPool threadPool => some { s with threadPool := threadPool }

/-! ### Names -/

/-- A name, with its last two separators. -/
theorem toList_connName (ntop : InetNtop) (serverName : String) (peerAddr : InetAddress)
    (connId : Int32) (ioLoop : Option LoopId) :
    ∃ front : List Char, (connName ntop serverName peerAddr connId ioLoop).toList =
      (front ++ '#' :: (toString connId.toInt).toList) ++ '@' :: (loopName ioLoop).toList := by
  refine ⟨((if serverName.isEmpty then "conn" else serverName) ++ "-" ++
    peerAddr.toIpPort ntop).toList, ?_⟩
  simp [connName]

theorem at_not_mem_loopName (ioLoop : Option LoopId) : '@' ∉ (loopName ioLoop).toList := by
  unfold loopName
  split <;> decide

/-- The number of a connection can be read off its name. -/
theorem connId_eq_of_connName_eq {ntop : InetNtop} {serverName : String}
    {peerAddr peerAddr' : InetAddress} {connId connId' : Int32} {ioLoop ioLoop' : Option LoopId}
    (hName : connName ntop serverName peerAddr connId ioLoop =
      connName ntop serverName peerAddr' connId' ioLoop') : connId = connId' := by
  have hNumber : ∀ id : Int32, '#' ∉ (toString id.toInt).toList := fun id =>
    not_mem_toString_int (by decide) (by decide) id.toInt
  obtain ⟨front, hText⟩ := toList_connName ntop serverName peerAddr connId ioLoop
  obtain ⟨front', hText'⟩ := toList_connName ntop serverName peerAddr' connId' ioLoop'
  rw [hName, hText'] at hText
  obtain ⟨hBefore, -⟩ := append_separator_inj (at_not_mem_loopName ioLoop')
    (at_not_mem_loopName ioLoop) hText
  obtain ⟨-, hDigits⟩ := append_separator_inj (hNumber connId') (hNumber connId) hBefore
  have hInt : connId'.toInt = connId.toInt := Int.repr_injective (String.toList_inj.mp hDigits)
  exact (Int32.toInt_inj.mp hInt).symm

/-- The counter gives different numbers until it has gone round. -/
theorem ofNat_injective {k k' : Nat} (hK : k < 2 ^ 32) (hK' : k' < 2 ^ 32)
    (hEq : Int32.ofNat (1 + k) = Int32.ofNat (1 + k')) : k = k' := by
  have hBmod := congrArg Int32.toInt hEq
  rw [Int32.toInt_ofNat', Int32.toInt_ofNat', Int32.size] at hBmod
  have hMod : ((1 + k : Nat) : Int) % 4294967296 = ((1 + k' : Nat) : Int) % 4294967296 :=
    calc ((1 + k : Nat) : Int) % 4294967296
        = ((1 + k : Nat) : Int).bmod 4294967296 % (4294967296 : Nat) := Int.bmod_emod.symm
      _ = ((1 + k' : Nat) : Int).bmod 4294967296 % (4294967296 : Nat) := by rw [hBmod]
      _ = ((1 + k' : Nat) : Int) % 4294967296 := Int.bmod_emod
  omega

/-! ### The invariant -/

/-- The server keeps its name, the counter counts, and each connection is named by its
place among those accepted.  While the numbers have not come round, the table has
exactly the connections that were accepted and not removed. -/
structure Exact (ntop : InetNtop) (serverName : String) (s : ConnectionTable) : Prop where
  sameName : s.serverName = serverName
  nextConnId : s.nextConnId = Int32.ofNat (1 + s.accepted.length)
  named : ∀ k conn, s.accepted[k]? = some conn →
    conn.name = connName ntop serverName conn.peerAddr (Int32.ofNat (1 + k)) conn.ioLoop
  removed : ∀ conn ∈ s.removed, conn ∈ s.accepted
  table : s.accepted.length < 2 ^ 32 → ∀ key conn, s.connections key = some conn ↔
    conn ∈ s.accepted ∧ conn ∉ s.removed ∧ conn.name = key

section Invariant

variable {ntop : InetNtop} {serverName : String} {s : ConnectionTable}

theorem exact_new (threadPool : Option EventLoopThreadPool) :
    Exact ntop serverName (new serverName threadPool) where
  sameName := rfl
  nextConnId := rfl
  named := by simp [new]
  removed := by simp [new]
  table := by simp [new]

/-- Connections with one name have one place. -/
theorem Exact.place_eq (hInv : Exact ntop serverName s) (hCount : s.accepted.length < 2 ^ 32)
    {k k' : Nat} {conn conn' : ServerConnection} (hAt : s.accepted[k]? = some conn)
    (hAt' : s.accepted[k']? = some conn') (hName : conn.name = conn'.name) : k = k' := by
  have hK : k < s.accepted.length := (List.getElem?_eq_some_iff.mp hAt).1
  have hK' : k' < s.accepted.length := (List.getElem?_eq_some_iff.mp hAt').1
  rw [hInv.named k conn hAt, hInv.named k' conn' hAt'] at hName
  exact ofNat_injective (hK.trans hCount) (hK'.trans hCount) (connId_eq_of_connName_eq hName)

theorem Exact.eq_of_name_eq (hInv : Exact ntop serverName s)
    (hCount : s.accepted.length < 2 ^ 32) {conn conn' : ServerConnection}
    (hMem : conn ∈ s.accepted) (hMem' : conn' ∈ s.accepted) (hName : conn.name = conn'.name) :
    conn = conn' := by
  obtain ⟨k, hAt⟩ := List.getElem?_of_mem hMem
  obtain ⟨k', hAt'⟩ := List.getElem?_of_mem hMem'
  obtain rfl := hInv.place_eq hCount hAt hAt' hName
  exact Option.some.inj (hAt.symm.trans hAt')

theorem Exact.nodup_names (hInv : Exact ntop serverName s)
    (hCount : s.accepted.length < 2 ^ 32) : (s.accepted.map ServerConnection.name).Nodup := by
  rw [List.nodup_iff_getElem?_ne_getElem?]
  intro i j hLt hJ hEq
  rw [List.length_map] at hJ
  have hAtI := List.getElem?_eq_getElem (hLt.trans hJ)
  have hAtJ := List.getElem?_eq_getElem hJ
  rw [List.getElem?_map, List.getElem?_map, hAtI, hAtJ] at hEq
  have hSame := hInv.place_eq hCount hAtI hAtJ (by simpa using hEq)
  omega

/-- The next name is new. -/
theorem Exact.fresh (hInv : Exact ntop serverName s) (hCount : s.accepted.length + 1 < 2 ^ 32)
    (peerAddr : InetAddress) (ioLoop : Option LoopId) {conn : ServerConnection}
    (hMem : conn ∈ s.accepted) :
    conn.name ≠ connName ntop s.serverName peerAddr s.nextConnId ioLoop := by
  intro hName
  obtain ⟨k, hAt⟩ := List.getElem?_of_mem hMem
  have hK : k < s.accepted.length := (List.getElem?_eq_some_iff.mp hAt).1
  rw [hInv.named k conn hAt, hInv.sameName, hInv.nextConnId] at hName
  have hSame := ofNat_injective (by omega) (by omega) (connId_eq_of_connName_eq hName)
  omega

/-- A new connection with the next name is put into the table. -/
theorem Exact.insert (hInv : Exact ntop serverName s) (conn : ServerConnection)
    (hName : conn.name = connName ntop s.serverName conn.peerAddr s.nextConnId conn.ioLoop) :
    Exact ntop serverName
      { s with
        nextConnId := s.nextConnId + 1
        connections := Function.update s.connections conn.name (some conn)
        accepted := s.accepted ++ [conn] } := by
  constructor
  case sameName => exact hInv.sameName
  case nextConnId =>
    simp only [hInv.nextConnId, List.length_append, List.length_singleton]
    rw [← Nat.add_assoc, Int32.ofNat_add (1 + s.accepted.length) 1]
    rfl
  case named =>
    intro k other hAt
    simp only at hAt
    by_cases hK : k < s.accepted.length
    · rw [List.getElem?_append_left hK] at hAt
      exact hInv.named k other hAt
    · obtain ⟨hLt, -⟩ := List.getElem?_eq_some_iff.mp hAt
      rw [List.length_append, List.length_singleton] at hLt
      obtain rfl : k = s.accepted.length := by omega
      obtain rfl : conn = other := by simpa using hAt
      rw [hName, hInv.sameName, hInv.nextConnId]
  case removed =>
    intro other hMem
    exact List.mem_append_left _ (hInv.removed other hMem)
  case table =>
    intro hCount key other
    rw [List.length_append, List.length_singleton] at hCount
    have hNew : ∀ old ∈ s.accepted, old.name ≠ conn.name := by
      intro old hOld
      rw [hName]
      exact hInv.fresh hCount _ _ hOld
    have hNotRemoved : conn ∉ s.removed := fun hMem => hNew conn (hInv.removed conn hMem) rfl
    simp only [List.mem_append, List.mem_singleton]
    by_cases hKey : key = conn.name
    · subst hKey
      rw [Function.update_self, Option.some.injEq]
      constructor
      · rintro rfl
        exact ⟨.inr rfl, hNotRemoved, rfl⟩
      · rintro ⟨hOld | hSame, -, hSameName⟩
        · exact absurd hSameName (hNew other hOld)
        · exact hSame.symm
    · rw [Function.update_of_ne hKey, hInv.table (by omega)]
      constructor
      · rintro ⟨hOld, hKept, hSameName⟩
        exact ⟨.inl hOld, hKept, hSameName⟩
      · rintro ⟨hOld | rfl, hKept, hSameName⟩
        · exact ⟨hOld, hKept, hSameName⟩
        · exact absurd hSameName.symm hKey

theorem Exact.chooseLoop (hInv : Exact ntop serverName s) :
    Exact ntop serverName s.chooseLoop.1 := by
  unfold ConnectionTable.chooseLoop
  split
  · exact hInv
  · exact ⟨hInv.sameName, hInv.nextConnId, hInv.named, hInv.removed, hInv.table⟩

theorem Exact.remove (hInv : Exact ntop serverName s) {conn : ServerConnection}
    (hAccepted : conn ∈ s.accepted) : Exact ntop serverName (s.removeConnectionInLoop conn) := by
  constructor
  case sameName => exact hInv.sameName
  case nextConnId => exact hInv.nextConnId
  case named => exact hInv.named
  case removed =>
    intro other hMem
    rcases List.mem_append.mp hMem with hOld | hNew
    · exact hInv.removed other hOld
    · obtain rfl := List.mem_singleton.mp hNew
      exact hAccepted
  case table =>
    intro hCount key other
    simp only [removeConnectionInLoop, List.mem_append, List.mem_singleton, not_or]
    by_cases hKey : key = conn.name
    · subst hKey
      rw [Function.update_self]
      refine iff_of_false (by simp) ?_
      rintro ⟨hMem, ⟨-, hOther⟩, hName⟩
      exact hOther (hInv.eq_of_name_eq hCount hMem hAccepted hName)
    · rw [Function.update_of_ne hKey, hInv.table hCount]
      constructor
      · rintro ⟨hMem, hKept, rfl⟩
        refine ⟨hMem, ⟨hKept, ?_⟩, rfl⟩
        rintro rfl
        exact hKey rfl
      · rintro ⟨hMem, ⟨hKept, -⟩, hName⟩
        exact ⟨hMem, hKept, hName⟩

theorem Exact.newConnection (hInv : Exact ntop serverName s) (sockfd : Int)
    (peerAddr : InetAddress) (getsockname : Option ((Nat → Byte) × Nat)) :
    Exact ntop serverName (s.newConnection ntop sockfd peerAddr getsockname) := by
  have hChosen := hInv.chooseLoop
  unfold ConnectionTable.newConnection
  cases getsockname with
  | none =>
      exact ⟨hChosen.sameName, hChosen.nextConnId, hChosen.named, hChosen.removed, hChosen.table⟩
  | some answer => exact hChosen.insert _ rfl

theorem exact_step (s : ConnectionTable) (label : TableLabel) (next : ConnectionTable)
    (hInv : Exact ntop serverName s) (hStep : step ntop s label = some next) :
    Exact ntop serverName next := by
  cases label with
  | newConnection sockfd peerAddr getsockname =>
      obtain rfl : s.newConnection ntop sockfd peerAddr getsockname = next := by
        simpa [step] using hStep
      exact hInv.newConnection sockfd peerAddr getsockname
  | removeConnectionInLoop conn =>
      obtain ⟨⟨hAccepted, -⟩, hNext⟩ := Option.ite_none_right_eq_some.mp hStep
      rw [← Option.some.inj hNext]
      exact hInv.remove hAccepted
  | setThreadPool threadPool =>
      obtain rfl : { s with threadPool := threadPool } = next := by simpa [step] using hStep
      exact ⟨hInv.sameName, hInv.nextConnId, hInv.named, hInv.removed, hInv.table⟩

theorem exact_run {threadPool : Option EventLoopThreadPool} {labels : List TableLabel}
    (hRun : exec (step ntop) (new serverName threadPool) labels = some s) :
    Exact ntop serverName s :=
  exec_invariant (Exact ntop serverName) exact_step (exact_new threadPool) hRun

end Invariant

/-- Nothing is lost by a step: a new connection gets a key of its own, a removal takes
away the entry of its connection and no other, and nothing else changes the table. -/
def LosesNothing (before : ConnectionTable) (after : ConnectionTable) : TableLabel → Prop
  | .newConnection _ _ none => after.connections = before.connections
  | .newConnection _ _ (some _) => ∃ conn, after.accepted = before.accepted ++ [conn] ∧
      before.connections conn.name = none ∧
      ∀ key, after.connections key =
        if key = conn.name then some conn else before.connections key
  | .removeConnectionInLoop conn => before.connections conn.name = some conn ∧
      ∀ key other, after.connections key = some other ↔
        before.connections key = some other ∧ other ≠ conn
  | .setThreadPool _ => after.connections = before.connections

theorem chooseLoop_connections (s : ConnectionTable) :
    s.chooseLoop.1.connections = s.connections ∧ s.chooseLoop.1.accepted = s.accepted := by
  unfold chooseLoop
  split
  · exact ⟨rfl, rfl⟩
  · exact ⟨rfl, rfl⟩

/-- The number of accepted connections does not go down. -/
theorem accepted_length_le_step {ntop : InetNtop} {s next : ConnectionTable} {label : TableLabel}
    (hStep : step ntop s label = some next) : s.accepted.length ≤ next.accepted.length := by
  cases label with
  | newConnection sockfd peerAddr getsockname =>
      obtain rfl : s.newConnection ntop sockfd peerAddr getsockname = next := by
        simpa [step] using hStep
      have hSame := (chooseLoop_connections s).2
      unfold newConnection
      cases getsockname with
      | none => simp [hSame]
      | some answer => simp [hSame]
  | removeConnectionInLoop conn =>
      obtain ⟨-, hNext⟩ := Option.ite_none_right_eq_some.mp hStep
      rw [← Option.some.inj hNext]
      exact le_rfl
  | setThreadPool threadPool =>
      obtain rfl : { s with threadPool := threadPool } = next := by simpa [step] using hStep
      exact le_rfl

theorem accepted_length_le_run {ntop : InetNtop} {s final : ConnectionTable}
    {labels : List TableLabel} (hRun : exec (step ntop) s labels = some final) :
    s.accepted.length ≤ final.accepted.length :=
  exec_invariant (fun t => s.accepted.length ≤ t.accepted.length)
    (fun _ _ _ hLe hStep => hLe.trans (accepted_length_le_step hStep)) le_rfl hRun

theorem losesNothing_step {ntop : InetNtop} {serverName : String} {s next : ConnectionTable}
    {label : TableLabel} (hInv : Exact ntop serverName s)
    (hStep : step ntop s label = some next) (hCount : next.accepted.length < 2 ^ 32) :
    LosesNothing s next label := by
  have hBefore : s.accepted.length < 2 ^ 32 := (accepted_length_le_step hStep).trans_lt hCount
  cases label with
  | newConnection sockfd peerAddr getsockname =>
      obtain rfl : s.newConnection ntop sockfd peerAddr getsockname = next := by
        simpa [step] using hStep
      obtain ⟨hSame, hAccepted⟩ := chooseLoop_connections s
      cases getsockname with
      | none => exact hSame
      | some answer =>
          simp only [newConnection, List.length_append, List.length_singleton] at hCount
          refine ⟨_, by simp only [newConnection, hAccepted]; rfl, ?_, fun key => ?_⟩
          · rw [← hSame, Option.eq_none_iff_forall_ne_some]
            intro conn hConn
            obtain ⟨hMem, -, hName⟩ := (hInv.chooseLoop.table (by omega) _ conn).mp hConn
            exact hInv.chooseLoop.fresh hCount _ _ hMem hName
          · rw [← hSame]
            exact Function.update_apply _ _ _ _
  | removeConnectionInLoop conn =>
      obtain ⟨⟨hAccepted, hOnce⟩, hNext⟩ := Option.ite_none_right_eq_some.mp hStep
      obtain rfl := Option.some.inj hNext
      refine ⟨(hInv.table hBefore _ _).mpr ⟨hAccepted, hOnce, rfl⟩, fun key other => ?_⟩
      rw [(hInv.remove hAccepted).table hCount, hInv.table hBefore]
      simp only [removeConnectionInLoop, List.mem_append, List.mem_singleton, not_or]
      tauto
  | setThreadPool threadPool =>
      obtain rfl : { s with threadPool := threadPool } = next := by simpa [step] using hStep
      rfl

/-- With fewer than `2 ^ 32` accepted connections the names are different, no step
loses an entry, and the table has exactly the connections that were accepted and not
removed. -/
theorem connectionTable_exact (ntop : InetNtop) (serverName : String)
    (threadPool : Option EventLoopThreadPool) (labels : List TableLabel) (s : ConnectionTable)
    (hRun : exec (step ntop) (new serverName threadPool) labels = some s)
    (hCount : s.accepted.length < 2 ^ 32) :
    (s.accepted.map ServerConnection.name).Nodup ∧
    (∀ key conn, s.connections key = some conn ↔
      conn ∈ s.accepted ∧ conn ∉ s.removed ∧ conn.name = key) ∧
    ∀ first label rest before after, labels = first ++ label :: rest →
      exec (step ntop) (new serverName threadPool) first = some before →
      step ntop before label = some after → LosesNothing before after label := by
  have hInv : Exact ntop serverName s := exact_run hRun
  refine ⟨hInv.nodup_names hCount, hInv.table hCount, ?_⟩
  rintro first label rest before after rfl hFirst hStep
  obtain ⟨middle, hMiddle, hRest⟩ := exists_of_exec_append hRun
  obtain rfl : before = middle := Option.some.inj (hFirst.symm.trans hMiddle)
  obtain ⟨next, hNext, hLater⟩ := exec_cons_eq_some.mp hRest
  obtain rfl : after = next := Option.some.inj (hStep.symm.trans hNext)
  exact losesNothing_step (exact_run hFirst) hStep
    ((accepted_length_le_run hLater).trans_lt hCount)

/-- `inet_ntop` of IPv4 addresses. -/
def dottedNtop : InetNtop where
  v4 := fun ip => toString (ip 0).toNat ++ "." ++ toString (ip 1).toNat ++ "." ++
    toString (ip 2).toNat ++ "." ++ toString (ip 3).toNat
  v6 := fun _ => "::"

/-- The address that `getsockname` gives: 127.0.0.1 and port 9000. -/
def localBytes : (Nat → Byte) × Nat :=
  (fun i => [2, 0, 35, 40, 127, 0, 0, 1].getD i 0, kSockaddrInSize)

def firstConnection : ServerConnection where
  name := "a#b-127.0.0.1:80#1@main"
  ioLoop := none
  sockfd := 5
  localAddr := InetAddress.ofSockaddr (some localBytes.1) localBytes.2
  peerAddr := InetAddress.ofPort 80 true AF_INET

/-- The same peer connects three times, `getsockname` fails once, and the first
connection is removed. -/
def samePeer : List TableLabel :=
  [.newConnection 5 (InetAddress.ofPort 80 true AF_INET) (some localBytes),
    .newConnection 6 (InetAddress.ofPort 80 true AF_INET) none,
    .newConnection 6 (InetAddress.ofPort 80 true AF_INET) (some localBytes),
    .removeConnectionInLoop firstConnection]

theorem connectionTable_exact_samePeer :
    ∃ s, exec (step dottedNtop) (new "a#b" none) samePeer = some s ∧
      s.accepted.map ServerConnection.name =
        ["a#b-127.0.0.1:80#1@main", "a#b-127.0.0.1:80#2@main"] ∧
      (s.accepted.map ServerConnection.name).Nodup ∧
      s.connections "a#b-127.0.0.1:80#1@main" ≠ some firstConnection := by
  have hNames : (exec (step dottedNtop) (new "a#b" none) samePeer).map
      (fun s => (s.accepted.map ServerConnection.name, s.removed)) =
      some (["a#b-127.0.0.1:80#1@main", "a#b-127.0.0.1:80#2@main"], [firstConnection]) := by
    decide +kernel
  obtain ⟨s, hRun, hEq⟩ := Option.map_eq_some_iff.mp hNames
  obtain ⟨hAccepted, hRemoved⟩ := Prod.mk.inj hEq
  have hLength : s.accepted.length = 2 := by
    simpa using congrArg List.length hAccepted
  obtain ⟨hNodup, hTable, -⟩ := connectionTable_exact dottedNtop "a#b" none samePeer s hRun
    (by omega)
  refine ⟨s, hRun, hAccepted, hNodup, fun hConn => ?_⟩
  exact ((hTable _ _).mp hConn).2.1 (by simp [hRemoved])

end ConnectionTable

end SolarNet
