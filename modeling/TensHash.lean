import TensHash.Basic
import TensHash.Heap
import TensHash.Node.Layer
import TensHash.Node.Matrices
import TensHash.Node.Hash
import TensHash.Node.Cache
import TensHash.Node.Affine
import TensHash.Node.Memory
import TensHash.TestPow
import TensHash.TestPow.Cli
import TensHash.TestPow.Memory
import TensHash.Ternary.Codec
import TensHash.Ternary.Layer
import TensHash.Ternary.Init
import TensHash.Ternary.Hash
import TensHash.Ternary.Memory
