import Mathlib.Algebra.Ring.Nat

/-!
# Registers, states and codes

The numbers of `esc.h` and `esc_coe.h` that the modelled functions use: register addresses, AL
states and AL status codes, mailbox and CoE codes, abort codes, and the flags of a dictionary
entry.  Each keeps the source's name, in lower camel case.
-/

namespace Soes

/-- `uint8_t`. -/
abbrev Byte : Type := BitVec 8
/-- `uint16_t`. -/
abbrev Word : Type := BitVec 16
/-- `uint32_t`. -/
abbrev Dword : Type := BitVec 32

/-! ## ESC registers -/

abbrev escregAddress : ℕ := 0x0010
abbrev escregConfStationAlias : ℕ := 0x0012
abbrev escregDlstatus : ℕ := 0x0110
abbrev escregAlcontrol : ℕ := 0x0120
abbrev escregAlstatus : ℕ := 0x0130
abbrev escregAlerror : ℕ := 0x0134
abbrev escregAleventmask : ℕ := 0x0204
abbrev escregAlevent : ℕ := 0x0220
abbrev escregWddivider : ℕ := 0x0400
abbrev escregWdtimepdata : ℕ := 0x0420
abbrev escregWdstatus : ℕ := 0x0440
abbrev escregSm0 : ℕ := 0x0800
abbrev escregSm0status : ℕ := escregSm0 + 5
abbrev escregSm0activate : ℕ := escregSm0 + 6
abbrev escregSm0pdi : ℕ := escregSm0 + 7
abbrev escregSyncAct : ℕ := 0x0981
abbrev escregSync0Status : ℕ := 0x098E

/-! ## Bits of the registers -/

abbrev escregAleventControl : Dword := 0x0001
abbrev escregAleventDcSync0 : Dword := 0x0004
abbrev escregAleventSmchange : Dword := 0x0010
abbrev escregAleventEep : Dword := 0x0020
abbrev escregAleventSm0 : Dword := 0x0100
abbrev escregAleventSm1 : Dword := 0x0200
abbrev escregAleventSm2 : Dword := 0x0400
abbrev escregAleventSm3 : Dword := 0x0800
abbrev escregWdstatusOk : Byte := 0x01
abbrev escregSyncActActivated : Byte := 0x01
abbrev escregSyncAutoActivated : Byte := 0x08
abbrev escregSmenableBit : Byte := 0x01
abbrev escregAlStatemask : Byte := 0x1f
abbrev escregAlAllbutinitmask : Byte := 0x0e
abbrev escregAlErrackmask : Byte := 0x0f
abbrev escregAlIdRequest : Word := 0x0020

/-! ## AL states, requests and AL status codes -/

abbrev escInit : Byte := 0x01
abbrev escPreop : Byte := 0x02
abbrev escBoot : Byte := 0x03
abbrev escSafeop : Byte := 0x04
abbrev escOp : Byte := 0x08
abbrev escError : Byte := 0x10

abbrev initToInit : Byte := 0x11
abbrev initToPreop : Byte := 0x21
abbrev initToBoot : Byte := 0x31
abbrev initToSafeop : Byte := 0x41
abbrev initToOp : Byte := 0x81
abbrev preopToInit : Byte := 0x12
abbrev preopToPreop : Byte := 0x22
abbrev preopToBoot : Byte := 0x32
abbrev preopToSafeop : Byte := 0x42
abbrev preopToOp : Byte := 0x82
abbrev bootToInit : Byte := 0x13
abbrev bootToPreop : Byte := 0x23
abbrev bootToBoot : Byte := 0x33
abbrev bootToSafeop : Byte := 0x43
abbrev bootToOp : Byte := 0x83
abbrev safeopToInit : Byte := 0x14
abbrev safeopToPreop : Byte := 0x24
abbrev safeopToBoot : Byte := 0x34
abbrev safeopToSafeop : Byte := 0x44
abbrev safeopToOp : Byte := 0x84
abbrev opToInit : Byte := 0x18
abbrev opToPreop : Byte := 0x28
abbrev opToBoot : Byte := 0x38
abbrev opToSafeop : Byte := 0x48
abbrev opToOp : Byte := 0x88

abbrev alerrNone : Word := 0x0000
abbrev alerrInvalidstatechange : Word := 0x0011
abbrev alerrUnknownstate : Word := 0x0012
abbrev alerrInvalidbootmbxconfig : Word := 0x0015
abbrev alerrInvalidmbxconfig : Word := 0x0016
abbrev alerrSyncerror : Word := 0x001A
abbrev alerrWatchdog : Word := 0x001B
abbrev alerrInvalidoutputsm : Word := 0x001D
abbrev alerrInvalidinputsm : Word := 0x001E
abbrev alerrFatalsyncerror : Word := 0x002C
abbrev alerrNosyncerror : Word := 0x002D
abbrev alerrDcinvalidsynccfg : Word := 0x0030

abbrev appstateIdle : Byte := 0x00
abbrev appstateInput : Byte := 0x01
abbrev appstateOutput : Byte := 0x02

/-- `ESC_OP_SYNC_VALID_NS`. -/
abbrev escOpSyncValidNs : ℕ := 200000000
/-- `ESC_OP_PENDING_TIMEOUT_NS`. -/
abbrev escOpPendingTimeoutNs : ℕ := 8100000000

abbrev smresultErrsm0 : Byte := 0x01
abbrev smresultErrsm1 : Byte := 0x02
abbrev smresultErrsm2 : Byte := 0x04
abbrev smresultErrsm3 : Byte := 0x08

/-! ## Process data -/

abbrev digProcessTxpdoFlag : Byte := 0x01
abbrev digProcessRxpdoFlag : Byte := 0x02
abbrev digProcessWdFlag : Byte := 0x04
abbrev digProcessAppHookFlag : Byte := 0x08

/-- `HW_WD_QUIET_CYCLES`. -/
abbrev hwWdQuietCycles : ℕ := 16

/-! ## Mailbox -/

/-- `ESC_MBXHSIZE`, the size of the mailbox header. -/
abbrev escMbxhsize : ℕ := 6

abbrev mbxerr : Byte := 0x00
abbrev mbxeoe : Byte := 0x02
abbrev mbxcoe : Byte := 0x03
abbrev mbxfoe : Byte := 0x04
abbrev mbxodl : Byte := 0x10
abbrev mbxseu : Byte := 0x40
abbrev mbxsed : Byte := 0x50

abbrev mbxerrUnsupportedprotocol : Word := 0x0002
abbrev mbxerrInvalidheader : Word := 0x0005
abbrev mbxerrSizetooshort : Word := 0x0006
abbrev mbxerrInvalidsize : Word := 0x0008
abbrev mbxerrServiceinwork : Word := 0x0009

/-! ## CoE -/

abbrev coeDefaultlength : ℕ := 10
abbrev coeHeadersize : ℕ := 10
abbrev coeSegmentheadersize : ℕ := 3
abbrev coeMinimumLength : ℕ := 8
abbrev coeSdorequest : Word := 0x02
abbrev coeSdoresponse : Word := 0x03
abbrev coeSdoinformation : Word := 0x08
abbrev coeCommandSdoabort : Byte := 0x80
abbrev coeCommandUploadrequest : Byte := 0x40
abbrev coeCommandUploadresponse : Byte := 0x40
abbrev coeCommandUploadsegment : Byte := 0x00
abbrev coeCommandUploadsegreq : Byte := 0x60
abbrev coeCommandDownloadrequest : Byte := 0x20
abbrev coeCommandDownloadresponse : Byte := 0x60
abbrev coeCommandDownloadsegreq : Byte := 0x00
abbrev coeCommandDownloadsegresp : Byte := 0x20
abbrev coeCommandLastsegmentbit : Byte := 0x01
abbrev coeSizeIndicator : Byte := 0x01
abbrev coeExpeditedIndicator : Byte := 0x02
abbrev coeCompleteaccess : Byte := 0x10
abbrev coeTogglebit : Byte := 0x10
abbrev coeInfoerror : Byte := 0x07
abbrev coeGetodlistresponse : Byte := 0x02
abbrev coeGetodresponse : Byte := 0x04
abbrev coeEntrydescriptionresponse : Byte := 0x06
abbrev coeValueinfoAccess : Byte := 0x01
abbrev coeValueinfoObject : Byte := 0x02
abbrev coeValueinfoMappable : Byte := 0x04

abbrev abortUnsupported : Dword := 0x06010000
abbrev abortWriteonly : Dword := 0x06010001
abbrev abortReadonly : Dword := 0x06010002
abbrev abortSubindex0NotZero : Dword := 0x06010003
abbrev abortCaNotSupported : Dword := 0x06010004
abbrev abortNoobject : Dword := 0x06020000
abbrev abortTypemismatch : Dword := 0x06070010
abbrev abortNosubindex : Dword := 0x06090011
abbrev abortGeneralerror : Dword := 0x08000000
abbrev abortNotinthisstate : Dword := 0x08000022

/-- `ESC_SDO_PENDING`, the answer of a pre-download hook that holds the reply back. -/
abbrev escSdoPending : Dword := 0xFFFFFFFF

/-! ## FoE -/

/-- `ESC_FOEHSIZE`, the size of the FoE header. -/
abbrev escFoehsize : ℕ := 6
/-- `FOE_FN_MAX`, the characters of a file name that are looked at. -/
abbrev foeFnMax : ℕ := 31

abbrev foeErrNotdefined : Dword := 0x8000
abbrev foeErrNotfound : Dword := 0x8001
abbrev foeErrDiskfull : Dword := 0x8003
abbrev foeErrIllegal : Dword := 0x8004
abbrev foeErrPacketno : Dword := 0x8005
abbrev foeErrNotinbootstrap : Dword := 0x8009
abbrev foeErrNorights : Dword := 0x800A
abbrev foeErrProgerror : Dword := 0x800B

abbrev foeOpWrq : Byte := 2
abbrev foeOpData : Byte := 3
abbrev foeOpAck : Byte := 4
abbrev foeOpErr : Byte := 5

/-! ## EoE -/

/-- `ESC_EOEHSIZE`, the size of the EoE header. -/
abbrev escEoehsize : ℕ := 4

abbrev eoeResultUnspecifiedError : Word := 0x0001
abbrev eoeResultUnsupportedFrameType : Word := 0x0002
abbrev eoeResultNoIpSupport : Word := 0x0201

abbrev eoeFragData : Word := 0
abbrev eoeInitReq : Word := 2
abbrev eoeInitResp : Word := 3
abbrev eoeGetIpParamReq : Word := 6
abbrev eoeGetIpParamResp : Word := 7

abbrev eoeHdrFrameType : Word := 0x000F
abbrev eoeHdrFramePort : Word := 0x00F0
abbrev eoeHdrLastFragment : Word := 0x0100

/-- `EOE_PARAM_OFFSET`. -/
abbrev eoeParamOffset : ℕ := 4
abbrev eoeParamMacInclude : Byte := 0x01
abbrev eoeParamIpInclude : Byte := 0x02
abbrev eoeParamSubnetIpInclude : Byte := 0x04
abbrev eoeParamDefaultGatewayInclude : Byte := 0x08
abbrev eoeParamDnsIpInclude : Byte := 0x10
abbrev eoeParamDnsNameInclude : Byte := 0x20

/-- `EOE_NUMBER_OF_PORTS`. -/
abbrev eoeNumberOfPorts : ℕ := 1
/-- `EOE_DNS_NAME_LENGTH`. -/
abbrev eoeDnsNameLength : ℕ := 32
/-- `EOE_ETHADDR_LENGTH`. -/
abbrev eoeEthaddrLength : ℕ := 6
/-- `EOE_IP4_LENGTH`. -/
abbrev eoeIp4Length : ℕ := 4

/-! ## Object dictionary -/

abbrev otypeVar : Word := 0x0007
abbrev otypeArray : Word := 0x0008

abbrev dtypeBoolean : Word := 0x0001
abbrev dtypeInteger8 : Word := 0x0002
abbrev dtypeInteger16 : Word := 0x0003
abbrev dtypeInteger32 : Word := 0x0004
abbrev dtypeUnsigned8 : Word := 0x0005
abbrev dtypeUnsigned16 : Word := 0x0006
abbrev dtypeUnsigned32 : Word := 0x0007
abbrev dtypeReal32 : Word := 0x0008
abbrev dtypeVisibleString : Word := 0x0009
abbrev dtypeOctetString : Word := 0x000A
abbrev dtypeUnicodeString : Word := 0x000B
abbrev dtypeDomain : Word := 0x000F
abbrev dtypeReal64 : Word := 0x0011
abbrev dtypeInteger64 : Word := 0x0015
abbrev dtypeUnsigned64 : Word := 0x001B
abbrev dtypeBitarr8 : Word := 0x002D
abbrev dtypeBitarr16 : Word := 0x002E
abbrev dtypeBitarr32 : Word := 0x002F
abbrev dtypeBit1 : Word := 0x0030
abbrev dtypeBit8 : Word := 0x0037
abbrev dtypeArrayOfInt : Word := 0x0260
abbrev dtypeArrayOfSint : Word := 0x0261
abbrev dtypeArrayOfDint : Word := 0x0262
abbrev dtypeArrayOfUdint : Word := 0x0263

abbrev atypeRpre : Byte := 0x01
abbrev atypeRsafe : Byte := 0x02
abbrev atypeRop : Byte := 0x04
abbrev atypeWpre : Byte := 0x08
abbrev atypeWsafe : Byte := 0x10
abbrev atypeWop : Byte := 0x20
abbrev atypeRo : Byte := atypeRpre ||| atypeRsafe ||| atypeRop

abbrev txPdoObjidx : Word := 0x1c13
abbrev rxPdoObjidx : Word := 0x1c12

abbrev completeAccessFlag : Word := 0x8000

end Soes
